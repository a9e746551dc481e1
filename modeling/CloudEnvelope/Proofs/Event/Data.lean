import CloudEnvelope.Event.Data
import CloudEnvelope.Proofs.Except
import CloudEnvelope.Proofs.Text.Utf8

/-!
# Which payloads have data

The text of a value objects to the first integer of too many digits, or to the first value that lies
deeper than there is room for (`Value.judged_literalFault?`).  So a payload has data exactly when
nothing in it gives cause to object and its text is free of lone surrogates
(`Value.isSome_toData?_iff`), and each fault has its own cause (`Value.toData_eq_unencodable_iff`,
`Value.exists_toData_eq_error_iff`).
-/

namespace CloudEnvelope.Value

/-! ### Nesting and integers -/

mutual

/-- How many values lie one inside another, the outermost one included. -/
def depth : Value → Nat
  | list items => itemsDepth items + 1
  | tuple items => itemsDepth items + 1
  | map entries => entriesDepth entries + 1
  | _ => 1

/-- The depth of the deepest item. -/
def itemsDepth : List Value → Nat
  | [] => 0
  | v :: rest => max (depth v) (itemsDepth rest)

/-- The depth of the deepest key or value. -/
def entriesDepth : List (Value × Value) → Nat
  | [] => 0
  | (k, v) :: rest => max (max (depth k) (depth v)) (entriesDepth rest)

end

mutual

/-- The integers that the text of a value shows, in its order. -/
def integers : Value → List Int
  | int n => [n]
  | list items => itemsIntegers items
  | tuple items => itemsIntegers items
  | map entries => entriesIntegers entries
  | _ => []

/-- The integers that the texts of items show. -/
def itemsIntegers : List Value → List Int
  | [] => []
  | v :: rest => integers v ++ itemsIntegers rest

/-- The integers that the texts of keys and values show. -/
def entriesIntegers : List (Value × Value) → List Int
  | [] => []
  | (k, v) :: rest => (integers k ++ integers v) ++ entriesIntegers rest

end

/-! ### Objections -/

/-- There is an objection when there is cause for it: room for too few values inside one another, or
too many digits of an integer. -/
inductive Judged (room depth : Nat) (integers : List Int) : Option Fault → Prop
  | fine (hdepth : depth ≤ room) (hdigits : ∀ n ∈ integers, Text.canSpell n) :
      Judged room depth integers none
  | deep (h : room < depth) : Judged room depth integers (some .nestedTooDeep)
  | digits {n : Int} (hn : n ∈ integers) (h : Text.canSpell n = false) :
      Judged room depth integers (some .tooManyDigits)

namespace Judged

variable {room d d' : Nat} {ns ns' : List Int} {r r' : Option Fault}

/-- Of two judgements the first objection counts. -/
theorem or (h : Judged room d ns r) (h' : Judged room d' ns' r') :
    Judged room (max d d') (ns ++ ns') (r.or r') := by
  cases h with
  | deep h => exact .deep (Nat.lt_of_lt_of_le h (Nat.le_max_left d d'))
  | digits hn h => exact .digits (List.mem_append_left _ hn) h
  | fine hdepth hdigits =>
    cases h' with
    | deep h => exact .deep (Nat.lt_of_lt_of_le h (Nat.le_max_right d d'))
    | digits hn h => exact .digits (List.mem_append_right _ hn) h
    | fine hdepth' hdigits' =>
      refine .fine (Nat.max_le.mpr ⟨hdepth, hdepth'⟩) fun n hn => ?_
      exact (List.mem_append.mp hn).elim (hdigits n) (hdigits' n)

/-- What lies inside a value has one room less. -/
theorem enter (h : Judged (room - 1) d ns r) :
    Judged room (d + 1) ns (if room = 0 then some .nestedTooDeep else r) := by
  split
  · exact .deep (by omega)
  · cases h with
    | fine hdepth hdigits => exact .fine (by omega) hdigits
    | deep h => exact .deep (by omega)
    | digits hn h => exact .digits hn h

theorem eq_none_iff (h : Judged room d ns r) :
    r = none ↔ d ≤ room ∧ ∀ n ∈ ns, Text.canSpell n := by
  cases h with
  | fine hdepth hdigits => exact iff_of_true rfl ⟨hdepth, hdigits⟩
  | deep h => exact iff_of_false nofun fun hfine => absurd hfine.1 (Nat.not_le.mpr h)
  | digits hn h =>
    refine iff_of_false nofun fun hfine => ?_
    rw [hfine.2 _ hn] at h
    cases h

end Judged

mutual

/-- The text of a value is judged by how deep values lie in it and by its integers. -/
theorem judged_literalFault? (room : Nat) :
    ∀ v : Value, Judged room v.depth v.integers (v.literalFault? room)
  | int n => by
    refine Judged.enter (d := 0) ?_
    cases hn : Text.canSpell n with
    | true => exact .fine (Nat.zero_le _) (List.forall_mem_singleton.mpr hn)
    | false => exact .digits List.mem_cons_self hn
  | list items => .enter (judged_itemsFault? (room - 1) items)
  | tuple items => .enter (judged_itemsFault? (room - 1) items)
  | map entries => .enter (judged_entriesFault? (room - 1) entries)
  | null | bool _ | float _ | text _ | bytes _ | buffer _ | view _ | dateTime _ | date _ | uuid _
  | url _ | custom _ =>
    .enter (d := 0) (.fine (Nat.zero_le _) fun _ hn => absurd hn List.not_mem_nil)

theorem judged_itemsFault? (room : Nat) :
    ∀ items : List Value, Judged room (itemsDepth items) (itemsIntegers items)
      (itemsFault? room items)
  | [] => .fine (Nat.zero_le _) fun _ hn => absurd hn List.not_mem_nil
  | v :: rest => (judged_literalFault? room v).or (judged_itemsFault? room rest)

theorem judged_entriesFault? (room : Nat) :
    ∀ entries : List (Value × Value), Judged room (entriesDepth entries) (entriesIntegers entries)
      (entriesFault? room entries)
  | [] => .fine (Nat.zero_le _) fun _ hn => absurd hn List.not_mem_nil
  | (k, v) :: rest =>
    ((judged_literalFault? room k).or (judged_literalFault? room v)).or
      (judged_entriesFault? room rest)

end

/-! ### Data -/

/-- A text has to be made of the payload: it is neither bytes nor a text nor nothing. -/
def isRendered : Value → Bool
  | bytes _ => false
  | buffer _ => false
  | view _ => false
  | null => false
  | text _ => false
  | _ => true

/-- The text that becomes the data of a payload: bytes have none, and neither has nothing. -/
def dataText? : Value → Option Text
  | bytes _ => none
  | buffer _ => none
  | view _ => none
  | null => none
  | v => some v.shown

/-- A text can be made of the payload, if one has to be: its values lie inside one another no deeper
than there is room for, and none of its integers has too many digits. -/
structure Tellable (room : Nat) (payload : Value) : Prop where
  nesting : payload.isRendered → payload.depth ≤ room
  digits : ∀ n ∈ payload.integers, Text.canSpell n

variable {room : Nat} {payload : Value}

theorem textData_eq_error_iff {t : Text} {fault : Fault} :
    textData t = .error fault ↔ ¬t.LoneFree ∧ fault = .unencodableText := by
  rw [← Text.isSome_utf8?_iff, textData]
  cases t.utf8? <;> simp [eq_comm]

theorem tellable_iff_of_isRendered (h : payload.isRendered) :
    payload.Tellable room ↔ payload.literalFault? room = none := by
  rw [(judged_literalFault? room payload).eq_none_iff]
  exact ⟨fun ht => ⟨ht.nesting h, ht.digits⟩, fun ht => ⟨fun _ => ht.1, ht.2⟩⟩

/-- A payload that is rendered has the data of its text, unless there is an objection to it. -/
theorem toData_of_isRendered (room : Nat) (h : payload.isRendered) :
    payload.dataText? = some payload.shown ∧ payload.toData room =
      match payload.literalFault? room with
      | some fault => .error fault
      | none => textData payload.shown := by
  cases payload with
  | null | bytes _ | buffer _ | view _ | text _ => cases h
  | _ => exact ⟨rfl, rfl⟩

/-- A payload that is not rendered is bytes, nothing or a text. -/
theorem toData_of_not_isRendered (h : payload.isRendered = false) :
    payload.Tellable room ∧ payload.toData room =
      match payload.dataText? with
      | some t => textData t
      | none => .ok (payload.toBytes?.getD []) := by
  have hplain {v : Value} (hv : v.isRendered = false) (hnone : v.integers = []) :
      v.Tellable room := by
    refine ⟨fun hrendered => absurd (hv.symm.trans hrendered) Bool.false_ne_true, fun n hn => ?_⟩
    rw [hnone] at hn
    cases hn
  cases payload with
  | null | bytes _ | buffer _ | view _ | text _ => exact ⟨hplain rfl rfl, rfl⟩
  | _ => cases h

/-- A payload that a text can be made of has the data of its text, or its bytes. -/
theorem toData_of_tellable (h : payload.Tellable room) :
    payload.toData room =
      match payload.dataText? with
      | some t => textData t
      | none => .ok (payload.toBytes?.getD []) := by
  cases hrendered : payload.isRendered with
  | true =>
    obtain ⟨htext, hdata⟩ := toData_of_isRendered room hrendered
    rw [hdata, (tellable_iff_of_isRendered hrendered).mp h, htext]
  | false => exact (toData_of_not_isRendered hrendered).2

/-- A payload that no text can be made of has a cause for it. -/
theorem exists_toData_of_not_tellable (h : ¬payload.Tellable room) :
    ∃ fault, payload.toData room = .error fault ∧
      Judged room payload.depth payload.integers (some fault) := by
  cases hrendered : payload.isRendered with
  | true =>
    have hjudged := judged_literalFault? room payload
    obtain ⟨-, hdata⟩ := toData_of_isRendered room hrendered
    rw [tellable_iff_of_isRendered hrendered] at h
    obtain ⟨fault, hfault⟩ := Option.ne_none_iff_exists'.mp h
    rw [hfault] at hjudged hdata
    exact ⟨fault, hdata, hjudged⟩
  | false => exact absurd (toData_of_not_isRendered hrendered).1 h

/-- A payload has data exactly when a text can be made of it and is free of lone surrogates. -/
theorem isSome_toData?_iff :
    (payload.toData? room).isSome ↔
      payload.Tellable room ∧ ∀ t, payload.dataText? = some t → t.LoneFree := by
  by_cases h : payload.Tellable room
  · rw [toData?, toData_of_tellable h]
    cases payload.dataText? with
    | none => simp [h, Except.toOption]
    | some t =>
      cases ht : t.utf8? <;> simp [h, textData, ht, ← Text.isSome_utf8?_iff, Except.toOption]
  · obtain ⟨fault, hfault, -⟩ := exists_toData_of_not_tellable h
    rw [toData?, hfault]
    exact iff_of_false Bool.false_ne_true fun hdata => h hdata.1

/-- The text codec objects to the text of a payload when one could be made. -/
theorem toData_eq_unencodable_iff :
    payload.toData room = .error .unencodableText ↔
      payload.Tellable room ∧ ∃ t, payload.dataText? = some t ∧ ¬t.LoneFree := by
  by_cases h : payload.Tellable room
  · rw [toData_of_tellable h]
    cases payload.dataText? with
    | none => simp
    | some t => simp [h, textData_eq_error_iff]
  · obtain ⟨fault, hfault, hjudged⟩ := exists_toData_of_not_tellable h
    rw [hfault]
    refine iff_of_false (fun heq => ?_) fun hdata => h hdata.1
    cases heq
    cases hjudged

/-- Every other fault comes of a payload that no text can be made of, and has its cause in it. -/
theorem exists_toData_eq_error_iff :
    (∃ fault, fault ≠ .unencodableText ∧ payload.toData room = .error fault) ↔
      ¬payload.Tellable room := by
  constructor
  · rintro ⟨fault, hne, hfault⟩ h
    rw [toData_of_tellable h] at hfault
    split at hfault
    · exact hne (textData_eq_error_iff.mp hfault).2
    · cases hfault
  · intro h
    obtain ⟨fault, hfault, hjudged⟩ := exists_toData_of_not_tellable h
    refine ⟨fault, ?_, hfault⟩
    rintro rfl
    cases hjudged

theorem judged_of_toData_eq_error {fault : Fault} (h : payload.toData room = .error fault)
    (hne : fault ≠ .unencodableText) :
    Judged room payload.depth payload.integers (some fault) := by
  obtain ⟨fault', hfault', hjudged⟩ :=
    exists_toData_of_not_tellable (exists_toData_eq_error_iff.mp ⟨fault, hne, h⟩)
  cases hfault'.symm.trans h
  exact hjudged

/-- A fault is about the text that is to be made. -/
theorem mem_faults_of_toData {fault : Fault} (h : payload.toData room = .error fault) :
    fault ∈ [.unencodableText, .tooManyDigits, .nestedTooDeep] := by
  by_cases hne : fault = .unencodableText
  · simp [hne]
  · cases judged_of_toData_eq_error h hne <;> simp

end CloudEnvelope.Value
