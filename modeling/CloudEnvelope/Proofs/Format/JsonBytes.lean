import CloudEnvelope.Proofs.Format.JsonStandard
import CloudEnvelope.Proofs.Json.Delimited

/-!
# Bytes of events in JSON

What is written of an event is read as a whole or not at all: when bytes are missing at its end it
is no JSON text, wherever the cut falls, and neither is it when anything but blanks follows
(`JsonEnvelope.serialize_whole`).
-/

namespace CloudEnvelope

/-- The byte is a space, a tab or a line end. -/
def Utf8.isBlankByte (b : UInt8) : Bool := b == 0x20 || b == 0x09 || b == 0x0A || b == 0x0D

namespace Json

open Utf8 (isBlankByte)

variable {cs : List Char} {raw part : Bytes} {j : Json}

/-! ### Blanks -/

theorem isBlankByte_of_mem_encode (h : ∀ c ∈ cs, isBlank c) :
    ∀ b ∈ Utf8.encode cs, isBlankByte b := by
  intro b hb
  obtain ⟨c, hc, hb⟩ := List.mem_flatMap.mp hb
  have hblank := h c hc
  simp only [isBlank, Bool.or_eq_true, beq_iff_eq] at hblank
  rcases hblank with ((rfl | rfl) | rfl) | rfl
  -- Each of them is written as a byte of its own.
  all_goals
    obtain rfl := List.mem_singleton.mp hb
    rfl

/-- Blank bytes are read as blanks. -/
theorem exists_decode?_blank {more : Bytes} (h : ∀ b ∈ more, isBlankByte b) :
    ∃ cs, Utf8.decode? more = some cs ∧ ∀ c ∈ cs, isBlank c := by
  induction more with
  | nil => exact ⟨[], rfl, fun c hc => absurd hc List.not_mem_nil⟩
  | cons b more ih =>
    rw [List.forall_mem_cons] at h
    obtain ⟨cs, hcs, hblank⟩ := ih h.2
    have hb := h.1
    simp only [isBlankByte, Bool.or_eq_true, beq_iff_eq] at hb
    have hchar : b.toNat < 0x80 ∧ isBlank (Char.ofNat b.toNat) := by
      rcases hb with ((rfl | rfl) | rfl) | rfl <;> decide
    refine ⟨Char.ofNat b.toNat :: cs, ?_, List.forall_mem_cons.mpr ⟨hchar.2, hblank⟩⟩
    rw [Utf8.decode?_one hchar.1, hcs, Option.map_some]

/-! ### Bytes of a text -/

/-- Behind the bytes of a string, an array or an object there may stand blanks, and nothing else. -/
theorem ofBytes?_append (h : ofBytes? raw = some j) (hj : ¬j.IsAtom) (more : Bytes) :
    ofBytes? (raw ++ more) = if more.all isBlankByte then some j else none := by
  obtain ⟨cs, hcs, hread⟩ := ofBytes?_eq_some_iff.mp h
  have happend : ofBytes? (raw ++ more)
      = (Utf8.decode? more).bind fun ms => if ms.all isBlank then some j else none := by
    rw [ofBytes?, ← Utf8.encode_of_decode? hcs, Utf8.decode?_encode_append, Option.bind_map]
    exact congrArg _ (funext (read?_append hread hj))
  rw [happend]
  by_cases hmore : more.all isBlankByte
  · obtain ⟨ms, hms, hblank⟩ := exists_decode?_blank (List.all_eq_true.mp hmore)
    rw [if_pos hmore, hms, Option.bind_some, if_pos (List.all_eq_true.mpr hblank)]
  · rw [if_neg hmore, Option.bind_eq_none_iff]
    intro ms hms
    refine if_neg fun hblank => hmore (List.all_eq_true.mpr ?_)
    rw [← Utf8.encode_of_decode? hms]
    exact isBlankByte_of_mem_encode (List.all_eq_true.mp hblank)

/-- When bytes are missing at the end of an object, no text is left. -/
theorem ofBytes?_eq_none_of_prefix (hobject : read? ('\x7b' :: (cs ++ ['\x7d'])) = some j)
    (hraw : Utf8.decode? raw = some ('\x7b' :: (cs ++ ['\x7d']))) (hstart : part <+: raw)
    (hne : part ≠ raw) : ofBytes? part = none := by
  rw [ofBytes?, Option.bind_eq_none_iff]
  intro ds hds
  -- A cut inside a character leaves bytes that are not read at all.
  obtain rfl := Utf8.encode_of_decode? hraw
  refine read?_eq_none_of_prefix hobject (Utf8.prefix_of_decode? hds hstart) ?_
  rintro rfl
  exact hne (Utf8.encode_of_decode? hds).symm

end Json

namespace JsonEnvelope

variable {e : Event} {raw : Bytes}

/-! ### Bytes of an event -/

/-- Bytes that are no JSON text are refused. -/
theorem refused_of_ofBytes? (h : Json.ofBytes? raw = none) :
    ∃ f, deserialize raw = .error f ∧ f.kind? = some .encoding := by
  obtain ⟨fault, hfault⟩ := exists_fault_of_ofBytes? h
  exact ⟨_, hfault, rfl⟩

/-- What is written of an event is the text of an object, from brace to brace. -/
theorem exists_braces_of_serialize (h : EventFormat.json.serialize e = .ok raw) :
    ∃ cs j, Utf8.decode? raw = some ('\x7b' :: (cs ++ ['\x7d'])) ∧
      Json.read? ('\x7b' :: (cs ++ ['\x7d'])) = some j ∧ ¬j.IsAtom := by
  obtain ⟨xs, hcs, hnames, hlone⟩ := exists_object_of_serialize h
  have hread := Json.read?_write (Json.legible_of_distinctNames hnames) hlone
  rw [Json.write_object, Text.chars_cons, Text.chars_append] at hcs hread
  exact ⟨_, _, hcs, hread, id⟩

/-- What is written of an event is refused when bytes are missing at its end, and when anything but
blanks follows.  Blanks change nothing. -/
theorem serialize_whole (h : EventFormat.json.serialize e = .ok raw) :
    (∀ part, part <+: raw → part ≠ raw →
        ∃ f, deserialize part = .error f ∧ f.kind? = some .encoding) ∧
      (∀ more, ¬(∀ b ∈ more, Utf8.isBlankByte b) →
        ∃ f, deserialize (raw ++ more) = .error f ∧ f.kind? = some .encoding) ∧
      ∀ more, (∀ b ∈ more, Utf8.isBlankByte b) → deserialize (raw ++ more) = deserialize raw := by
  obtain ⟨cs, j, hcs, hread, hj⟩ := exists_braces_of_serialize h
  have hobject : Json.ofBytes? raw = some j := Json.ofBytes?_eq_some_iff.mpr ⟨_, hcs, hread⟩
  refine ⟨fun part hstart hne => ?_, fun more hmore => ?_, fun more hmore => ?_⟩
  · exact refused_of_ofBytes?
      (Json.ofBytes?_eq_none_of_prefix hread hcs hstart hne)
  · apply refused_of_ofBytes?
    rw [Json.ofBytes?_append hobject hj, if_neg (mt List.all_eq_true.mp hmore)]
  · rw [deserialize_of_ofBytes? hobject]
    apply deserialize_of_ofBytes?
    rw [Json.ofBytes?_append hobject hj, if_pos (List.all_eq_true.mpr hmore)]

/-- An event whose subject is a letter of two bytes. -/
def accented : Event :=
  { notANumber with
    subject := some "\u00e9"
    data := [] }

/-- The bytes of `accented`. -/
def accentedBytes : Bytes :=
  Utf8.ofString "\x7b\"specversion\":\"1.0\",\"id\":\"1\",\"source\":\"urn:x\",\"type\":\"t\","
    ++ Utf8.ofString "\"subject\":\"\u00e9\"\x7d"

theorem serialize_whole_accented :
    EventFormat.json.serialize accented = .ok accentedBytes ∧
      (∃ f, deserialize (accentedBytes.take 70) = .error f ∧ f.kind? = some .encoding) ∧
      (∃ f, deserialize (accentedBytes ++ [0x31]) = .error f ∧ f.kind? = some .encoding) ∧
      deserialize (accentedBytes ++ [0x20, 0x0A]) = deserialize accentedBytes := by
  have hwrite : EventFormat.json.serialize accented = .ok accentedBytes := by decide +kernel
  obtain ⟨hpart, hmore, hblank⟩ := serialize_whole hwrite
  -- The cut falls between the two bytes of the letter.
  exact ⟨hwrite, hpart _ (List.take_prefix _ _) (by decide), hmore _ (by decide),
    hblank _ (by decide +kernel)⟩

end JsonEnvelope

end CloudEnvelope
