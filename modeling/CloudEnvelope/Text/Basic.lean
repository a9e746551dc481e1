/-!
# Text that may hold lone surrogates

Header keys and values arrive as sequences of code points. Most are Unicode scalar values, but a
lone half of a surrogate pair may stand among them: it has no UTF-8 form, and the places where
that matters are the places where an operation on `Text` returns an `Option`.

`CodePoint.ofNat?_toNat` says that a code point is found again from its number, and
`Text.scalars?_ofString` that the text of a string holds scalar values only.
-/

namespace CloudEnvelope

/-- A Unicode scalar value, or the lone half `U+D800 + half` of a surrogate pair. -/
inductive CodePoint where
  | scalar (c : Char)
  | lone (half : Fin 0x800)
deriving DecidableEq, Repr

namespace CodePoint

/-- The number of a code point. -/
def toNat : CodePoint → Nat
  | scalar c => c.toNat
  | lone half => 0xD800 + half.val

/-- The code point of a number below `0x110000`. -/
def ofNat? (n : Nat) : Option CodePoint :=
  if n.isValidChar then some (scalar (Char.ofNat n))
  else if h : 0xD800 ≤ n ∧ n < 0xE000 then some (lone ⟨n - 0xD800, by omega⟩)
  else none

theorem ofNat?_toNat (c : CodePoint) : ofNat? c.toNat = some c := by
  cases c with
  | scalar c => simp [ofNat?, toNat, show c.toNat.isValidChar from c.valid]
  | lone half =>
    have hlt := half.isLt
    have hval : ¬(0xD800 + half.val).isValidChar := by simp only [Nat.isValidChar]; omega
    have hrange : 0xD800 ≤ 0xD800 + half.val ∧ 0xD800 + half.val < 0xE000 := by omega
    simp [ofNat?, toNat, hval, hrange]

/-- The scalar value of a code point that is not a lone surrogate. -/
def scalar? : CodePoint → Option Char
  | scalar c => some c
  | lone _ => none

end CodePoint

/-- A sequence of code points. -/
abbrev Text := List CodePoint

namespace Text

/-- The text of a string. -/
def ofString (s : String) : Text := s.toList.map .scalar

/-- The text of a sequence of scalar values. -/
def ofChars (cs : List Char) : Text := cs.map .scalar

instance : Coe String Text := ⟨ofString⟩

/-- The scalar values of a text without lone surrogates. -/
def scalars? (t : Text) : Option (List Char) := t.mapM CodePoint.scalar?

/-- The string of a text without lone surrogates. -/
def toString? (t : Text) : Option String := t.scalars?.map String.ofList

theorem scalars?_ofChars (cs : List Char) : scalars? (ofChars cs) = some cs := by
  induction cs with
  | nil => rfl
  | cons c cs ih =>
    simp only [scalars?, ofChars] at ih
    simp [scalars?, ofChars, CodePoint.scalar?, ih]

theorem scalars?_ofString (s : String) : scalars? (ofString s) = some s.toList :=
  scalars?_ofChars s.toList

theorem toString?_ofString (s : String) : toString? (ofString s) = some s := by
  simp [toString?, scalars?_ofString]

/-- The text begins with `start`. -/
def startsWith (t start : Text) : Bool := start.isPrefixOf t

/-- The text ends with `final`. -/
def endsWith (t final : Text) : Bool := final.isSuffixOf t

/-- The text holds `fragment` as a run of neighbouring code points. -/
def holds : Text → Text → Bool
  | [], fragment => fragment.isEmpty
  | c :: rest, fragment => startsWith (c :: rest) fragment || holds rest fragment

/-- The part before the first `mark`, and the part after it if there is one. -/
def splitFirst (mark : Char) : Text → Text × Option Text
  | [] => ([], none)
  | c :: rest =>
    if c = .scalar mark then ([], some rest)
    else
      let (before, after) := splitFirst mark rest
      (c :: before, after)

/-- The part after the last `mark`, if there is one. -/
def afterLast? (mark : Char) (t : Text) : Option Text :=
  match (splitFirst mark t.reverse) with
  | (_, none) => none
  | (after, some _) => some after.reverse

/-- The texts one after another with `mark` between neighbours. -/
def joinWith (mark : Text) : List Text → Text
  | [] => []
  | [t] => t
  | t :: rest => t ++ mark ++ joinWith mark rest

/-- Every `old` becomes `new`. -/
def substitute (t : Text) (old : Char) (new : Text) : Text :=
  t.flatMap fun c => if c = .scalar old then new else [c]

/-- The order by code point: `true` when the first text comes no later than the second. -/
def ordered : Text → Text → Bool
  | [], _ => true
  | _ :: _, [] => false
  | a :: s, b :: t => a.toNat < b.toNat || (a.toNat == b.toNat && ordered s t)

/-- The texts in the order by code point. -/
def sort (ts : List Text) : List Text := ts.mergeSort ordered

/-- The decimal digits of a natural number. -/
def ofNat (n : Nat) : Text := ofChars (Nat.toDigits 10 n)

/-- The number of digits up to which an integer is written in decimal. -/
def digitLimit : Nat := 4300

/-- The integer has few enough digits to be written in decimal. -/
def canSpell (n : Int) : Bool := (Nat.toDigits 10 n.natAbs).length ≤ digitLimit

/-- The decimal digits of an integer, with a sign when it is negative. -/
def ofInt : Int → Text
  | .ofNat n => ofNat n
  | .negSucc n => .scalar '-' :: ofNat (n + 1)

end Text

end CloudEnvelope
