import HealthCheck.Context
import HealthCheck.Json.Path
import HealthCheck.Probe

/-!
# Operands

An operand of a condition is a placeholder for something that a probe observed, such as `[STATUS]`
or `[BODY].data.id`, or a value of the context, such as `[CONTEXT].user`, or a literal. It may be
wrapped once in `len(...)` or `has(...)`. Placeholder names do not depend on the case of letters;
the paths behind them do.

Resolving an operand never fails. A lookup that finds nothing shows as the operand followed by
` (INVALID)`, or as `false` under `has`.
-/

namespace HealthCheck

/-! ## Placeholders -/

/-- Something that an operand can stand for. -/
inductive Placeholder where
  | status
  | ip
  | responseTime
  | dnsRcode
  | connected
  | certificateExpiration
  | domainExpiration
  | body
  | context
deriving DecidableEq, Repr

namespace Placeholder

/-- Every placeholder. -/
def all : List Placeholder :=
  [status, ip, responseTime, dnsRcode, connected, certificateExpiration, domainExpiration, body,
    context]

/-- The text of a placeholder, in capitals. -/
def token : Placeholder → Text
  | status => "[STATUS]".toList
  | ip => "[IP]".toList
  | responseTime => "[RESPONSE_TIME]".toList
  | dnsRcode => "[DNS_RCODE]".toList
  | connected => "[CONNECTED]".toList
  | certificateExpiration => "[CERTIFICATE_EXPIRATION]".toList
  | domainExpiration => "[DOMAIN_EXPIRATION]".toList
  | body => "[BODY]".toList
  | context => "[CONTEXT]".toList

/-- The placeholder that a text is, in any case of letters. -/
def ofToken? (t : Text) : Option Placeholder := all.find? fun p => Text.sameIgnoringCase p.token t

/-- What follows the placeholder in a text that starts with it, in any case of letters. -/
def strip? (p : Placeholder) (t : Text) : Option Text :=
  let n := p.token.length
  if Text.sameIgnoringCase (t.take n) p.token then some (t.drop n) else none

end Placeholder

/-! ## Wrappers -/

/-- A function around an operand. -/
inductive Wrapper where
  | none
  | length
  | presence
deriving DecidableEq, Repr

namespace Wrapper

/-- Takes at most one wrapper off a text. -/
def unwrap (t : Text) : Wrapper × Text :=
  match Text.between? "len(".toList ")".toList t with
  | some inner => (length, inner)
  | _ =>
    match Text.between? "has(".toList ")".toList t with
    | some inner => (presence, inner)
    | _ => (none, t)

/-- Applies a wrapper to a text that is always there. -/
def apply : Wrapper → Text → Text
  | none, t => t
  | length, t => Text.ofNat t.length
  | presence, t => Text.ofBool (t != [])

end Wrapper

/-! ## Resolving -/

/-- What an operand comes to. -/
inductive Resolution where
  /-- The text that was found or computed. -/
  | found (t : Text)
  /-- A lookup failed in the operand as written. -/
  | failed (operand : Text)
deriving DecidableEq, Repr

namespace Resolution

/-- The mark of a failed lookup. -/
def mark : Text := "(INVALID)".toList

/-- The text of a resolution: a failed lookup shows the operand and the mark. -/
def text : Resolution → Text
  | found t => t
  | failed operand => operand ++ ' ' :: mark

end Resolution

namespace Operand

/-- What a lookup that may fail comes to under a wrapper, given the text and the length of what it
found. -/
def ofLookup (wrapper : Wrapper) (raw : Text) : Option (Text × Nat) → Resolution
  | some (t, n) =>
    match wrapper with
    | .none => .found t
    | .length => .found (Text.ofNat n)
    | .presence => .found (Text.ofBool true)
  | none =>
    match wrapper with
    | .presence => .found (Text.ofBool false)
    | _ => .failed raw

/-- Drops one leading dot of a path. -/
def dropDot : Text → Text
  | '.' :: path => path
  | path => path

/-- The length of a context value: characters of a string, elements of an array, keys of an object,
and characters of any other value's text. -/
def contextLength : Json → Nat
  | .string t => t.length
  | .array items => items.length
  | .object fields => fields.length
  | v => (JsonPath.text v).length

/-- Looks a path up in a context. The empty path leads nowhere. -/
def lookupContext (path : Text) (c : Context) : Option (Text × Nat) :=
  let path := dropDot path
  if path = [] then none
  else
    match c.get path with
    | .ok v => some (JsonPath.text v, contextLength v)
    | .error _ => none

/-- Looks a path up in a body. -/
def lookupBody (path : Text) (body : Bytes) : Option (Text × Nat) :=
  (JsonPath.eval (dropDot path) body).toOption

/-- What the whole body comes to under a wrapper. A JSON array counts its elements, anything else
its characters. -/
def ofBody (wrapper : Wrapper) (p : Probe) : Text :=
  let body := Text.trim p.bodyText
  match wrapper with
  | .length =>
    match Json.parse? body with
    | some (.array items) => Text.ofNat items.length
    | _ => Text.ofNat body.length
  | w => w.apply body

/-- What a placeholder that stands alone comes to; the context is not among them. -/
def ofFixed (wrapper : Wrapper) (p : Probe) : Placeholder → Option Text
  | .status => some (wrapper.apply (Text.ofNat p.status.toNat))
  | .ip => some (wrapper.apply p.ip)
  | .responseTime => some (wrapper.apply (Text.ofNat p.duration.toNat))
  | .dnsRcode => some (wrapper.apply p.dnsRcode)
  | .connected => some (wrapper.apply (Text.ofBool p.connected))
  | .certificateExpiration => some (wrapper.apply (Text.ofNat p.certificateExpiration.toNat))
  | .domainExpiration => some (wrapper.apply (Text.ofNat p.domainExpiration.toNat))
  | .body => some (ofBody wrapper p)
  | .context => none

/-- The path behind `[BODY]`, which starts with a dot or a bracket. -/
def bodyPath? (operand : Text) : Option Text :=
  match Placeholder.body.strip? operand with
  | some ('.' :: path) => some ('.' :: path)
  | some ('[' :: path) => some ('[' :: path)
  | _ => none

/-- What an operand other than a context value comes to. -/
def resolveObserved (wrapper : Wrapper) (raw operand : Text) (p : Probe) : Resolution :=
  match (Placeholder.ofToken? operand).bind (ofFixed wrapper p) with
  | some t => .found t
  | none =>
    match bodyPath? operand with
    | some path => ofLookup wrapper raw (lookupBody path p.body)
    | none =>
      match wrapper with
      | .none => .found raw
      | w => ofLookup w raw none

/-- Resolves an operand. Without a context, `[CONTEXT]` operands stand for themselves. -/
def resolve (operand : Text) (p : Probe) (context : Option Context) : Resolution :=
  let raw := Text.trim operand
  let (wrapper, inner) := Wrapper.unwrap raw
  match context, Placeholder.context.strip? inner with
  | some c, some path => ofLookup wrapper raw (lookupContext path c)
  | _, _ => resolveObserved wrapper raw inner p

end Operand

end HealthCheck
