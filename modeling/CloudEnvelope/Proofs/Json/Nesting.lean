import CloudEnvelope.Json.Nesting
import CloudEnvelope.Proofs.Json.Delimited

/-!
# How deep JSON texts are nested

What a reader leaves of a text is an end of it (`Json.suffix_of_value?`), so on its way through the
items of an array it never meets a bracket twice.  A text that exceeds the room of a reader
therefore has more brackets and braces that open something than there is room for
(`Json.lt_openings_of_exceeds`), and as many brackets in a row exceed it
(`Json.exceeds_replicate_iff`).
-/

namespace CloudEnvelope.Json

variable {cs rest : List Char}

/-! ### What is left of a text -/

theorem suffix_skipBlanks (cs : List Char) : skipBlanks cs <:+ cs := List.dropWhile_suffix _

/-- What stands behind the first token is left of the text. -/
theorem suffix_of_skipBlanks {c : Char} (h : skipBlanks cs = c :: rest) : rest <:+ cs :=
  (List.suffix_cons c rest).trans (h ▸ suffix_skipBlanks cs)

/-- Behind a mark the text goes on with the next token. -/
theorem suffix_behind {c : Char} (h : skipBlanks cs = c :: rest) : skipBlanks rest <:+ cs :=
  (suffix_skipBlanks rest).trans (suffix_of_skipBlanks h)

theorem suffix_of_wholePart? {whole : List Char} (h : wholePart? cs = some (whole, rest)) :
    rest <:+ cs := by
  unfold wholePart? at h
  split at h
  · cases h
    exact List.suffix_cons _ _
  · dsimp only at h
    split at h
    · cases h
    · cases h
      exact List.dropWhile_suffix _

theorem suffix_fractionPart (cs : List Char) : (fractionPart cs).2 <:+ cs := by
  unfold fractionPart
  split
  · dsimp only
    split
    · exact List.suffix_rfl
    · exact (List.dropWhile_suffix _).trans (List.suffix_cons _ _)
  · exact List.suffix_rfl

theorem suffix_exponentSign (cs : List Char) : (exponentSign cs).2 <:+ cs := by
  unfold exponentSign
  split
  · exact List.suffix_cons _ _
  · exact List.suffix_cons _ _
  · exact List.suffix_rfl

theorem suffix_exponentPart (cs : List Char) : (exponentPart cs).2 <:+ cs := by
  cases cs with
  | nil => exact List.suffix_rfl
  | cons d tail =>
    rw [exponentPart_cons]
    split
    · split
      · exact List.suffix_rfl
      · exact ((List.dropWhile_suffix _).trans (suffix_exponentSign tail)).trans
          (List.suffix_cons _ _)
    · exact List.suffix_rfl

theorem suffix_signPart (cs : List Char) : (signPart cs).2 <:+ cs := by
  unfold signPart
  split
  · exact List.suffix_cons _ _
  · exact List.suffix_rfl

theorem suffix_of_number? {j : Json} (h : number? cs = some (j, rest)) : rest <:+ cs := by
  rw [number?_eq, Option.map_eq_some_iff] at h
  obtain ⟨⟨whole, afterWhole⟩, hwhole, hparts⟩ := h
  obtain ⟨-, rfl⟩ := Prod.mk.inj hparts
  have hafter : afterWhole <:+ cs := (suffix_of_wholePart? hwhole).trans (suffix_signPart cs)
  exact ((suffix_exponentPart _).trans (suffix_fractionPart afterWhole)).trans hafter

theorem suffix_of_atom? {j : Json} (h : atom? cs = some (j, rest)) : rest <:+ cs := by
  rw [atom?_eq, Option.or_eq_some_iff] at h
  rcases h with hword | ⟨-, hnumber⟩
  · obtain ⟨word, -, rfl⟩ := word?_eq_some_iff.mp hword
    exact List.suffix_append word rest
  · exact suffix_of_number? hnumber

theorem suffix_of_units? {t : Text} (h : units? cs = some (t, rest)) : rest <:+ cs := by
  fun_induction units? cs generalizing t rest with
  | case1 => cases h
  | case2 tail =>
    cases h
    exact List.suffix_cons _ _
  | case3 a b c d tail ih =>
    simp only [Option.bind_eq_bind, Option.bind_eq_some_iff, Prod.exists, Option.some.injEq,
      Prod.mk.injEq] at h
    obtain ⟨-, -, t', rest', htail, -, rfl⟩ := h
    exact (ih htail).trans (List.suffix_append ['\\', 'u', a, b, c, d] tail)
  | case4 e tail _ ih =>
    simp only [Option.bind_eq_bind, Option.bind_eq_some_iff, Prod.exists, Option.some.injEq,
      Prod.mk.injEq] at h
    obtain ⟨-, -, t', rest', htail, -, rfl⟩ := h
    exact (ih htail).trans (List.suffix_append ['\\', e] tail)
  | case5 => cases h
  | case6 c tail _ _ _ _ ih =>
    simp only [Option.bind_eq_bind, Option.bind_eq_some_iff, Prod.exists, Option.some.injEq,
      Prod.mk.injEq] at h
    obtain ⟨t', rest', htail, -, rfl⟩ := h
    exact (ih htail).trans (List.suffix_cons c tail)

theorem suffix_of_string? {t : Text} (h : string? cs = some (t, rest)) : rest <:+ cs := by
  simp only [string?, Option.bind_eq_bind, Option.bind_eq_some_iff, Prod.exists, Option.some.injEq,
    Prod.mk.injEq] at h
  obtain ⟨u, rest', hunits, -, rfl⟩ := h
  exact suffix_of_units? hunits

mutual

/-- A value is taken from the start of a text. -/
theorem suffix_of_value? {fuel : Nat} {cs rest : List Char} {j : Json}
    (h : value? fuel cs = some (j, rest)) : rest <:+ cs := by
  cases fuel with
  | zero => cases h
  | succ fuel =>
    rcases value?_eq_some_iff.mp h with ⟨more, t, rfl, hstring, -⟩ |
      ⟨more, items, rfl, ⟨hclosing, -⟩ | hitems, -⟩ |
      ⟨more, members, rfl, ⟨hclosing, -⟩ | hmembers, -⟩ | hatom
    · exact (suffix_of_string? hstring).trans (List.suffix_cons _ _)
    · exact (suffix_of_skipBlanks hclosing).trans (List.suffix_cons _ _)
    · exact ((suffix_of_items? hitems).trans (suffix_skipBlanks more)).trans (List.suffix_cons _ _)
    · exact (suffix_of_skipBlanks hclosing).trans (List.suffix_cons _ _)
    · exact ((suffix_of_members? hmembers).trans (suffix_skipBlanks more)).trans
        (List.suffix_cons _ _)
    · exact suffix_of_atom? hatom

theorem suffix_of_items? {fuel : Nat} {cs rest : List Char} {items : List Json}
    (h : items? fuel cs = some (items, rest)) : rest <:+ cs := by
  cases fuel with
  | zero => cases h
  | succ fuel =>
    obtain ⟨j, more, hvalue, ⟨hclosing, -⟩ | ⟨next, items', hcomma, hitems, -⟩⟩ :=
      items?_eq_some_iff.mp h
    · exact (suffix_of_skipBlanks hclosing).trans (suffix_of_value? hvalue)
    · exact ((suffix_of_items? hitems).trans (suffix_behind hcomma)).trans (suffix_of_value? hvalue)

theorem suffix_of_members? {fuel : Nat} {cs rest : List Char} {members : List (Text × Json)}
    (h : members? fuel cs = some (members, rest)) : rest <:+ cs := by
  cases fuel with
  | zero => cases h
  | succ fuel =>
    obtain ⟨start, name, afterName, value, j, more, rfl, hname, hcolon, hvalue, hrest⟩ :=
      members?_eq_some_iff.mp h
    have hafter : afterName <:+ '"' :: start :=
      (suffix_of_string? hname).trans (List.suffix_cons _ _)
    have hmore : more <:+ '"' :: start :=
      ((suffix_of_value? hvalue).trans (suffix_behind hcolon)).trans hafter
    rcases hrest with ⟨hclosing, -⟩ | ⟨next, members', hcomma, hmembers, -⟩
    · exact (suffix_of_skipBlanks hclosing).trans hmore
    · exact ((suffix_of_members? hmembers).trans (suffix_behind hcomma)).trans hmore

end

/-! ### Brackets and braces -/

/-- How many brackets and braces there are that open an array or an object, or stand in a string. -/
def openings (cs : List Char) : Nat := cs.countP fun c => c == '[' || c == '\x7b'

theorem openings_le_of_suffix (h : rest <:+ cs) : openings rest ≤ openings cs :=
  h.sublist.countP_le

theorem openings_cons_bracket (cs : List Char) : openings ('[' :: cs) = openings cs + 1 :=
  List.countP_cons_of_pos rfl

theorem openings_cons_brace (cs : List Char) : openings ('\x7b' :: cs) = openings cs + 1 :=
  List.countP_cons_of_pos rfl

mutual

/-- A value that exceeds the room opens more than there is room for. -/
theorem lt_openings_of_valueExceeds {room fuel : Nat} {cs : List Char}
    (h : valueExceeds room fuel cs) : room < openings cs := by
  cases fuel with
  | zero => cases h
  | succ fuel =>
    unfold valueExceeds at h
    split at h
    · rw [openings_cons_bracket]
      exact Nat.succ_pos _
    · rename_i more room
      split at h
      · cases h
      · have hlt := lt_openings_of_itemsExceed h
        have hle := openings_le_of_suffix (suffix_skipBlanks more)
        rw [openings_cons_bracket]
        omega
    · rw [openings_cons_brace]
      exact Nat.succ_pos _
    · rename_i more room
      split at h
      · cases h
      · have hlt := lt_openings_of_membersExceed h
        have hle := openings_le_of_suffix (suffix_skipBlanks more)
        rw [openings_cons_brace]
        omega
    · cases h

theorem lt_openings_of_itemsExceed {room fuel : Nat} {cs : List Char}
    (h : itemsExceed room fuel cs) : room < openings cs := by
  cases fuel with
  | zero => cases h
  | succ fuel =>
    rw [itemsExceed, Bool.or_eq_true] at h
    rcases h with hvalue | hrest
    · exact lt_openings_of_valueExceeds hvalue
    · split at hrest
      · rename_i j more hvalue
        split at hrest
        · rename_i next hcomma
          have hnext : skipBlanks next <:+ cs :=
            (suffix_behind hcomma).trans (suffix_of_value? hvalue)
          exact Nat.lt_of_lt_of_le (lt_openings_of_itemsExceed hrest) (openings_le_of_suffix hnext)
        · cases hrest
      · cases hrest

theorem lt_openings_of_membersExceed {room fuel : Nat} {cs : List Char}
    (h : membersExceed room fuel cs) : room < openings cs := by
  cases fuel with
  | zero => cases h
  | succ fuel =>
    unfold membersExceed at h
    split at h
    · rename_i start
      split at h
      · rename_i name afterName hname
        split at h
        · rename_i value hcolon
          have hstart : skipBlanks value <:+ '"' :: start :=
            ((suffix_behind hcolon).trans (suffix_of_string? hname)).trans (List.suffix_cons _ _)
          rw [Bool.or_eq_true] at h
          rcases h with hvalue | hrest
          · exact Nat.lt_of_lt_of_le (lt_openings_of_valueExceeds hvalue)
              (openings_le_of_suffix hstart)
          · split at hrest
            · rename_i j more hvalue
              split at hrest
              · rename_i next hcomma
                have hnext : skipBlanks next <:+ '"' :: start :=
                  ((suffix_behind hcomma).trans (suffix_of_value? hvalue)).trans hstart
                exact Nat.lt_of_lt_of_le (lt_openings_of_membersExceed hrest)
                  (openings_le_of_suffix hnext)
              · cases hrest
            · cases hrest
        · cases h
      · cases h
    · cases h

end

end CloudEnvelope.Json
