import CloudEnvelope.Calendar.Iso
import CloudEnvelope.Number.Layout
import CloudEnvelope.Text.Quoted
import CloudEnvelope.Value.Basic

/-!
# Values as text

`Value.shown` is the text that stands for a value as a whole, for instance as the data of an event:
a text is itself, a time is written in ISO 8601 with a space, and so on. `Value.literal` is the form
a value has inside a list or a map, where texts are quoted and kinds are told apart.
-/

namespace CloudEnvelope

/-- The five groups of hexadecimal digits of an identifier. -/
def Uuid.canonical (u : Uuid) : String :=
  let digits := Nat.toDigits 16 u.bits.toNat
  let all := List.replicate (32 - digits.length) '0' ++ digits
  let group (start size : Nat) := (all.drop start).take size
  String.ofList (group 0 8 ++ '-' :: group 8 4 ++ '-' :: group 12 4 ++ '-' :: group 16 4
    ++ '-' :: group 20 12)

/-- Numbers in the text of a value: positional from 10 ^ -4 to below 10 ^ 16. -/
def NumberLayout.plain : NumberLayout where
  nan := "nan"
  infinity := "inf"

namespace Value

/-- A name before arguments in parentheses. -/
def call (name : Text) (arguments : List Text) : Text :=
  name ++ "(" ++ Text.joinWith ", " arguments ++ ")"

/-- The days, seconds and microseconds of an offset that are not zero, as named arguments. -/
def offsetArguments (n : Int) : List Text :=
  let days := Int.fdiv n 86400000000
  let within := Int.fmod n 86400000000
  let seconds := within / 1000000
  let microseconds := within % 1000000
  let named (name : Text) (n : Int) : List Text := if n = 0 then [] else [name ++ Text.ofInt n]
  named "days=" days ++ named "seconds=" seconds ++ named "microseconds=" microseconds

/-- An offset inside a literal. -/
def offsetLiteral (o : Offset) : Text :=
  if o.microseconds = 0 then "datetime.timezone.utc"
  else call "datetime.timezone" [call "datetime.timedelta" (offsetArguments o.microseconds)]

/-- A time inside a compound value. -/
def dateTimeLiteral (t : DateTime) : Text :=
  let fields := [t.date.year, t.date.month, t.date.day, t.time.hour, t.time.minute]
  let small := if t.time.microsecond ≠ 0 then [t.time.second, t.time.microsecond]
    else if t.time.second ≠ 0 then [t.time.second]
    else []
  let zone := match t.offset with
    | none => []
    | some o => ["tzinfo=" ++ offsetLiteral o]
  call "datetime.datetime" ((fields ++ small).map Text.ofNat ++ zone)

/-- A date inside a compound value. -/
def dateLiteral (d : Date) : Text :=
  call "datetime.date" ([d.year, d.month, d.day].map Text.ofNat)

/-- A value that holds no other values, inside a compound value. -/
def leafLiteral : Value → Text
  | null => "None"
  | bool b => if b then "True" else "False"
  | int n => Text.ofInt n
  | float x => x.write .plain
  | text t => t.quoted
  | bytes b => Bytes.quoted b
  | buffer b => call "bytearray" [Bytes.quotedMutable b]
  | view w => "<memory at 0x" ++ Text.ofChars (Nat.toDigits 16 w.address) ++ ">"
  | dateTime t => dateTimeLiteral t
  | date d => dateLiteral d
  | uuid u => call "UUID" [Text.quoted u.canonical]
  | url u => call "AnyUrl" [Text.quoted u.href]
  | custom shown => shown
  | _ => []

mutual

/-- A value inside a compound value. -/
def literal : Value → Text
  | list items => "[" ++ Text.joinWith ", " (literals items) ++ "]"
  | tuple items =>
    let inner := literals items
    "(" ++ Text.joinWith ", " inner ++ (if inner.length = 1 then ",)" else ")")
  | map entries => "\x7b" ++ Text.joinWith ", " (entryLiterals entries) ++ "\x7d"
  | v => leafLiteral v

/-- Each item inside a compound value. -/
def literals : List Value → List Text
  | [] => []
  | v :: rest => literal v :: literals rest

/-- Each key before its value inside a map. -/
def entryLiterals : List (Value × Value) → List Text
  | [] => []
  | (k, v) :: rest => (literal k ++ ": " ++ literal v) :: entryLiterals rest

end

/-- The text that stands for a value as a whole. -/
def shown : Value → Text
  | text t => t
  | dateTime t => Text.ofChars (t.iso ' ')
  | date d => Text.ofChars d.iso
  | uuid u => u.canonical
  | url u => u.href
  | v => v.literal

end Value

end CloudEnvelope
