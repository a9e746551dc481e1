import CloudEnvelope.Proofs.Format.Decoders
import CloudEnvelope.Proofs.Transformer.Envelope

/-!
# Events of messages read back from Avro

`Transformer.avro_deserialize_iff`: what Avro writes of the event of a message is read back exactly
when the time of the event, taken to UTC, lies in the years 1 to 9999.

A time keeps the offset of its header.  In the first hours of year 1 an offset east of UTC takes it
before the calendar, and in the last hours of year 9999 an offset west of UTC takes it past the
calendar.  A number is written for such a time all the same, and the reader stumbles over it.
-/

namespace CloudEnvelope

/-! ### Times outside the calendar -/

/-- The number that is written for a time outside the calendar is let through as a fault. -/
theorem AvroEnvelope.passes_of_serialize {e : Event} {t : DateTime} {raw : Bytes}
    (ht : e.time = some t) (htime : ¬DateTime.InCalendar t.instant) (h : serialize e = .ok raw)
    (hlen : raw.length < 2 ^ 63) : Passes raw .timeOutOfRange := by
  obtain ⟨xs, -, body, hwrite, rfl⟩ := serialize_eq_ok_iff.mp h
  rw [List.length_append] at hlen
  have hread := Avro.Record.refuses_write (r := recordOf e xs) ht htime hwrite (by omega) []
  rw [List.append_nil] at hread
  exact .time rfl hread

/-! ### Events of messages -/

namespace Transformer

variable {settings : Settings} {formats : List (Supplied EventFormat)}
  {converter : Option (Supplied MessageConverter)} {t : Transformer} {m : Message} {e : Event}
  {raw : Bytes} {room : Nat}

/-- What Avro writes of the event of a message is read back as that event when its time lies inside
the calendar, or when it has none.  With a time outside it is not read back at all. -/
theorem avro_deserialize_iff (hmake : make settings formats converter = .ok t)
    (hevent : t.toEvent m room = .ok e) (hraw : EventFormat.avro.serialize e = .ok raw)
    (hlen : raw.length < 2 ^ 63) :
    ((∃ d, AvroEnvelope.deserialize raw = .ok d ∧ Event.ReadBack ExtensionValue.toValue e d) ↔
        ∀ s ∈ e.time, DateTime.InCalendar s.instant) ∧
      (AvroEnvelope.deserialize raw = .error (.fault .timeOutOfRange) ↔
        ∃ s ∈ e.time, ¬DateTime.InCalendar s.instant) := by
  have hbuilt := ((toEvent_eq_ok_iff (make_eq_ok_iff.mp hmake)).mp hevent).2
  have hserialize : AvroEnvelope.serialize e = .ok raw := Except.mapError_eq_ok_iff.mp hraw
  by_cases htime : ∀ s ∈ e.time, DateTime.InCalendar s.instant
  · obtain ⟨d, hd, hback⟩ :=
      AvroEnvelope.exists_deserialize hbuilt.specversion htime hserialize hlen
    refine ⟨iff_of_true ⟨d, hd, hback⟩ htime, iff_of_false ?_ (by simpa using htime)⟩
    rw [hd]
    exact nofun
  · obtain ⟨s, hs, houtside⟩ : ∃ s ∈ e.time, ¬DateTime.InCalendar s.instant := by
      simpa using htime
    have hfault := AvroEnvelope.deserialize_of_passes
      (AvroEnvelope.passes_of_serialize hs houtside hserialize hlen)
    refine ⟨iff_of_false ?_ htime, iff_of_true hfault ⟨s, hs, houtside⟩⟩
    rintro ⟨d, hd, -⟩
    rw [hfault] at hd
    cases hd

/-- A message with an identity and a time. -/
def timedMessage (time : String) : Message where
  payload := .null
  headers :=
    ⟨[("id", .text "1"), ("at-all", .text time)],
      (by decide : (["id", "at-all"] : List Text).Nodup)⟩

/-- The message has an event of whose time a number is known, and the format writes the event in a
few bytes. -/
def Written (f : EventFormat) (number : DateTime → Int) (time : String) (n : Int) : Prop :=
  (make addressed [.component .json] none).toOption.any fun t =>
    (t.toEvent (timedMessage time)).toOption.any fun e =>
      e.time.map number = some n ∧ (f.serialize e).toOption.any fun raw => raw.length < 200

instance (f : EventFormat) (number : DateTime → Int) (time : String) (n : Int) :
    Decidable (Written f number time n) :=
  inferInstanceAs (Decidable (_ = true))

theorem Written.exists_serialize {f : EventFormat} {number : DateTime → Int} {time : String}
    {n : Int} (h : Written f number time n) :
    ∃ t e raw s, make addressed [.component .json] none = .ok t ∧
      t.toEvent (timedMessage time) = .ok e ∧ f.serialize e = .ok raw ∧
      raw.length < 2 ^ 63 ∧ e.time = some s ∧ number s = n := by
  obtain ⟨t, ht, h⟩ := (Option.any_eq_true _ _).mp h
  obtain ⟨e, he, h⟩ := (Option.any_eq_true _ _).mp h
  obtain ⟨htime, h⟩ := of_decide_eq_true h
  obtain ⟨raw, hraw, hlen⟩ := (Option.any_eq_true _ _).mp h
  obtain ⟨s, hs, hnumber⟩ := Option.map_eq_some_iff.mp htime
  rw [Except.toOption_eq_some_iff] at ht he hraw
  have hshort : raw.length < 200 := of_decide_eq_true hlen
  exact ⟨t, e, raw, s, ht, he, hraw, by omega, hs, hnumber⟩

theorem avro_deserialize_iff_noon :
    ∃ t e raw, make addressed [.component .json] none = .ok t ∧
      t.toEvent (timedMessage "2024-02-29T12:00:00+05:30") = .ok e ∧
      EventFormat.avro.serialize e = .ok raw ∧ raw.length < 2 ^ 63 ∧
      (∀ s ∈ e.time, DateTime.InCalendar s.instant) ∧
      ∃ d, AvroEnvelope.deserialize raw = .ok d ∧ Event.ReadBack ExtensionValue.toValue e d := by
  have hwritten : Written .avro DateTime.instant "2024-02-29T12:00:00+05:30" 1709188200000000 := by
    decide +kernel
  obtain ⟨t, e, raw, s, ht, he, hraw, hlen, hs, hinstant⟩ := hwritten.exists_serialize
  have htime : ∀ s ∈ e.time, DateTime.InCalendar s.instant := by
    rw [hs]
    rintro _ ⟨⟩
    rw [hinstant]
    exact ⟨by decide, by decide⟩
  exact ⟨t, e, raw, ht, he, hraw, hlen, htime, (avro_deserialize_iff ht he hraw hlen).1.mpr htime⟩

/-- The first day of year 1 begins before the calendar in the far east.  Avro writes an event of
that time, and does not read what it has written. -/
theorem firstDay_unread :
    ∃ t e raw, make addressed [.component .json] none = .ok t ∧
      t.toEvent (timedMessage "0001-01-01T00:00:00+14:00") = .ok e ∧
      EventFormat.avro.serialize e = .ok raw ∧
      AvroEnvelope.deserialize raw = .error (.fault .timeOutOfRange) := by
  have hwritten :
      Written .avro DateTime.instant "0001-01-01T00:00:00+14:00" (-62135647200000000) := by
    decide +kernel
  obtain ⟨t, e, raw, s, ht, he, hraw, hlen, hs, hinstant⟩ := hwritten.exists_serialize
  have houtside : ¬DateTime.InCalendar s.instant := by
    rw [hinstant]
    exact fun h => absurd h.1 (by decide)
  have hserialize : AvroEnvelope.serialize e = .ok raw := Except.mapError_eq_ok_iff.mp hraw
  have hpasses := AvroEnvelope.passes_of_serialize hs houtside hserialize hlen
  exact ⟨t, e, raw, ht, he, hraw, AvroEnvelope.deserialize_of_passes hpasses⟩

end Transformer

end CloudEnvelope
