import CloudEnvelope.Proofs.Format.JsonReadBack
import CloudEnvelope.Proofs.Transformer.AvroReadBack

/-!
# Events of messages read back from JSON

`Transformer.json_deserialize_iff`: what JSON writes of the event of a message is read back exactly
when the offset of its time is a whole number of minutes.

The time of a header may have seconds in its offset, and the event keeps them.  They are written as
they are, in a form that is no longer RFC 3339, and the reader refuses it.
-/

namespace CloudEnvelope.Transformer

open JsonEnvelope (malformed restored unreadableTime)

variable {settings : Settings} {formats : List (Supplied EventFormat)}
  {converter : Option (Supplied MessageConverter)} {t : Transformer} {m : Message} {e : Event}
  {raw : Bytes} {room : Nat}

/-- What JSON writes of the event of a message is read back as that event, but for the form of its
data, when the offset of its time is a whole number of minutes, or when it has no time.  With
seconds in the offset it is not read back at all. -/
theorem json_deserialize_iff (hmake : make settings formats converter = .ok t)
    (hevent : t.toEvent m room = .ok e) (hraw : EventFormat.json.serialize e = .ok raw) :
    ((∃ d, JsonEnvelope.deserialize raw = .ok d ∧
        Event.ReadBack restored { e with data := d.data } d) ↔
        ∀ s ∈ e.time, (s.offset.getD .utc).WholeMinutes) ∧
      (JsonEnvelope.deserialize raw = .error (malformed unreadableTime) ↔
        ∃ s ∈ e.time, ¬(s.offset.getD .utc).WholeMinutes) := by
  have hbuilt := ((toEvent_eq_ok_iff (make_eq_ok_iff.mp hmake)).mp hevent).2
  exact JsonEnvelope.deserialize_serialize_iff hbuilt.specversion hraw

/-- The microseconds of a time's offset, which is that of UTC for a local time. -/
def offsetMicroseconds (s : DateTime) : Int := (s.offset.getD .utc).microseconds

theorem json_deserialize_iff_noon :
    ∃ t e raw, make addressed [.component .json] none = .ok t ∧
      t.toEvent (timedMessage "2024-02-29T12:00:00+05:30") = .ok e ∧
      EventFormat.json.serialize e = .ok raw ∧
      (∀ s ∈ e.time, (s.offset.getD .utc).WholeMinutes) ∧
      ∃ d, JsonEnvelope.deserialize raw = .ok d ∧
        Event.ReadBack restored { e with data := d.data } d := by
  have hwritten : Written .json offsetMicroseconds "2024-02-29T12:00:00+05:30" 19800000000 := by
    decide +kernel
  obtain ⟨t, e, raw, s, ht, he, hraw, -, hs, hoffset⟩ := hwritten.exists_serialize
  have htime : ∀ s ∈ e.time, (s.offset.getD .utc).WholeMinutes := by
    rw [hs]
    rintro _ ⟨⟩
    rw [Offset.WholeMinutes, ← offsetMicroseconds, hoffset]
    rfl
  exact ⟨t, e, raw, ht, he, hraw, htime, (json_deserialize_iff ht he hraw).1.mpr htime⟩

/-- Fifteen seconds more in the offset, and JSON does not read what it has written. -/
theorem quarterMinute_unread :
    ∃ t e raw, make addressed [.component .json] none = .ok t ∧
      t.toEvent (timedMessage "2024-02-29T12:00:00+05:30:15") = .ok e ∧
      EventFormat.json.serialize e = .ok raw ∧
      JsonEnvelope.deserialize raw = .error (malformed unreadableTime) := by
  have hwritten : Written .json offsetMicroseconds "2024-02-29T12:00:00+05:30:15" 19815000000 := by
    decide +kernel
  obtain ⟨t, e, raw, s, ht, he, hraw, -, hs, hoffset⟩ := hwritten.exists_serialize
  have hseconds : ¬(s.offset.getD .utc).WholeMinutes := by
    rw [Offset.WholeMinutes, ← offsetMicroseconds, hoffset]
    decide
  have hbuilt := ((toEvent_eq_ok_iff (make_eq_ok_iff.mp ht)).mp he).2
  exact ⟨t, e, raw, ht, he, hraw,
    (JsonEnvelope.deserialize_serialize_iff hbuilt.specversion hraw).2.mpr ⟨s, hs, hseconds⟩⟩

end CloudEnvelope.Transformer
