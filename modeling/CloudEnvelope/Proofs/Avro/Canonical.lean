import CloudEnvelope.Proofs.Avro.Record
import Mathlib.Tactic.Common

/-!
# Records that are read are written again

A record has many forms in bytes: numbers may be longer than they need to be, a map may come in
several blocks and name an entry twice, and a branch may be counted from either end.  Whatever the
form, the record that is read is canonical (`Record.yields_read`): it has a form that is written,
and from that form it is read again as it was, with its time (`Record.Canonical.reads_write`).
-/

namespace CloudEnvelope.Avro

/-- Every value that the reader takes has the property. -/
def Yields {α : Type} (r : Reader α) (P : α → Prop) : Prop :=
  ∀ ⦃input a rest⦄, r input = .ok (a, rest) → P a

namespace Yields

variable {α β : Type} {P : α → Prop} {Q : β → Prop}

theorem pure {a : α} (h : P a) : Yields (Pure.pure a : Reader α) P := by
  rintro input b rest ⟨⟩
  exact h

theorem throw (fault : Fault) : Yields (MonadExcept.throw fault : Reader α) P := by
  intro input a rest h
  cases h

theorem bind {r : Reader α} {f : α → Reader β} (hr : Yields r P) (hf : ∀ a, P a → Yields (f a) Q) :
    Yields (r >>= f) Q := by
  intro input b rest h
  change (r input >>= fun p => f p.1 p.2) = .ok (b, rest) at h
  obtain ⟨⟨a, middle⟩, ha, hb⟩ := Except.bind_eq_ok_iff.mp h
  exact hf a (hr ha) hb

/-- Of a value that the property does not speak of nothing has to be known. -/
theorem bind_any {r : Reader α} {f : α → Reader β} (hf : ∀ a, Yields (f a) Q) :
    Yields (r >>= f) Q :=
  bind (P := fun _ => True) (fun _ _ _ _ => trivial) fun a _ => hf a

theorem bind_pure {r : Reader α} {f : α → β} (hr : Yields r P) (hf : ∀ a, P a → Q (f a)) :
    Yields (r >>= fun a => Pure.pure (f a)) Q :=
  bind hr fun a ha => pure (hf a ha)

end Yields

/-! ### Numbers -/

/-- Groups come round to the low end of a word and do not leave it. -/
theorem Integer.ofGroups_lt (shift : Nat) (groups : List Nat) : ofGroups shift groups < 2 ^ 64 := by
  induction groups generalizing shift with
  | nil => exact Nat.two_pow_pos 64
  | cons g rest ih => exact Nat.or_lt_two_pow (Nat.mod_lt _ (Nat.two_pow_pos 64)) (ih _)

theorem Integer.holds_unfold {n : Nat} (h : n < 2 ^ 64) : Word.holds 64 (unfold n) := by
  rw [Word.holds_iff, unfold]
  split <;> omega

/-- Every integer that is read fits a word of 64 bits, however long its form is. -/
theorem yields_integer : Yields Integer.read fun n => Word.holds 64 n := by
  intro input n rest h
  unfold Integer.read at h
  split at h
  · cases h
  · split at h
    · cases h
      exact Integer.holds_unfold (Integer.ofGroups_lt 0 _)
    · cases h

/-! ### Fields -/

theorem yields_text : Yields readText Text.LoneFree :=
  .bind_any fun s => .pure (Text.loneFree_ofString s)

/-- The time is the one in UTC of its instant. -/
def Settled (t : DateTime) : Prop := DateTime.ofInstant? t.instant = some t

theorem Settled.inCalendar {t : DateTime} (h : Settled t) : DateTime.InCalendar t.instant := by
  by_contra hout
  rw [Settled, DateTime.ofInstant?_eq_none hout] at h
  cases h

/-- Settled times are told apart by their instants. -/
theorem Settled.eq_of_instant {s t : DateTime} (hs : Settled s) (ht : Settled t)
    (h : s.instant = t.instant) : s = t := by
  rw [Settled, h, ht] at hs
  exact (Option.some.inj hs).symm

/-- Settled times that may be there are told apart by their instants as well. -/
theorem eq_of_map_instant {o o' : Option DateTime} (ho : ∀ t ∈ o, Settled t)
    (ho' : ∀ t ∈ o', Settled t) (h : o.map DateTime.instant = o'.map DateTime.instant) :
    o = o' := by
  cases o with
  | none => exact (Option.map_eq_none_iff.mp h.symm).symm
  | some s =>
    obtain ⟨t, rfl, ht⟩ := Option.map_eq_some_iff.mp h.symm
    rw [(ho s rfl).eq_of_instant (ho' t rfl) ht.symm]

theorem settled_of_ofInstant? {n : Int} {t : DateTime} (h : DateTime.ofInstant? n = some t) :
    Settled t := by
  by_cases hin : DateTime.InCalendar n
  · obtain ⟨t', ht', rfl, -⟩ := DateTime.exists_ofInstant? hin
    rw [h] at ht'
    cases ht'
    exact h
  · rw [DateTime.ofInstant?_eq_none hin] at h
    cases h

theorem yields_time : Yields readTime Settled := by
  refine .bind_any fun n => ?_
  split
  · rename_i t ht
    exact .pure (settled_of_ofInstant? ht)
  · exact .throw _

theorem yields_optional {α : Type} {r : Reader α} {P : α → Prop} (hr : Yields r P) :
    Yields (readOptional r) fun o => ∀ a ∈ o, P a := by
  refine .bind_any fun n => ?_
  split
  · exact .pure fun a ha => absurd ha (Option.not_mem_none a)
  · refine hr.bind_pure fun a ha => ?_
    rintro _ ⟨⟩
    exact ha

/-! ### Extensions -/

/-- Whatever branch an integer stands in, it has a form. -/
theorem yields_extension : Yields readExtension Carries := by
  refine .bind_any fun n => ?_
  split
  · exact .bind_any fun b => .pure trivial
  · exact yields_integer.bind_pure fun n hn => Word.holds_iff.mp hn
  · exact yields_integer.bind_pure fun n hn => Word.holds_iff.mp hn
  · exact yields_text.bind_pure fun t ht => ht
  · exact .bind_any fun content => .pure trivial

/-- The name and the value of an entry have a form. -/
def CarriesEntry (e : Text × ExtensionValue) : Prop := e.1.LoneFree ∧ Carries e.2

theorem yields_entries (count : Nat) :
    Yields (readEntries count) fun es => ∀ e ∈ es, CarriesEntry e := by
  induction count with
  | zero => exact .pure fun e he => absurd he List.not_mem_nil
  | succ count ih =>
    exact yields_text.bind fun name hname => yields_extension.bind fun x hx =>
      ih.bind_pure fun rest hrest => List.forall_mem_cons.mpr ⟨⟨hname, hx⟩, hrest⟩

theorem yields_block (count : Int) :
    Yields (readBlock count) fun es => ∀ e ∈ es, CarriesEntry e := by
  unfold readBlock
  split
  · exact .bind_any fun _ => yields_entries _
  · exact yields_entries _

theorem yields_blocks : Yields readBlocks fun es => ∀ e ∈ es, CarriesEntry e := by
  intro input entries rest h
  fun_induction readBlocks input generalizing entries rest with
  | case1 => cases h
  | case2 =>
    cases h
    exact fun e he => absurd he List.not_mem_nil
  | case3 => cases h
  | case4 => cases h
  | case5 input count rest' hcount hne block rest'' hrest hlt others final hothers ih =>
    cases h
    exact List.forall_mem_append.mpr ⟨yields_block count hrest, ih hothers⟩

/-- Of equal names the last value counts, and it has a form like the others. -/
theorem yields_map : Yields readMap fun m => ∀ e ∈ m.entries, CarriesEntry e :=
  yields_blocks.bind_pure fun _ h => OrderedMap.forall_mem_ofList h

/-! ### Records -/

/-- All of the record has a form, and its time is the one in UTC. -/
structure Record.Canonical (r : Record) : Prop where
  dataContentType : ∀ t ∈ r.dataContentType, t.LoneFree
  dataSchema : ∀ t ∈ r.dataSchema, t.LoneFree
  subject : ∀ t ∈ r.subject, t.LoneFree
  time : ∀ t ∈ r.time, Settled t
  extensions : ∀ e ∈ r.extensions.entries, CarriesEntry e

/-- Every record that is read is canonical, in whatever form it has been. -/
theorem Record.yields_read : Yields Record.read Record.Canonical := by
  refine .bind_any fun id => .bind_any fun source => .bind_any fun type => ?_
  refine (yields_optional yields_text).bind fun dataContentType hcontentType => ?_
  refine (yields_optional yields_text).bind fun dataSchema hschema => ?_
  refine (yields_optional yields_text).bind fun subject hsubject => ?_
  refine (yields_optional yields_time).bind fun time htime => ?_
  refine yields_map.bind fun extensions hextensions => ?_
  exact .bind_any fun data => .pure ⟨hcontentType, hschema, hsubject, htime, hextensions⟩

namespace Record.Canonical

variable {r : Record}

/-- A canonical record is written. -/
theorem exists_write (h : r.Canonical) : ∃ bytes, r.write = .ok bytes :=
  Record.exists_write_iff.mpr ⟨h.dataContentType, h.dataSchema, h.subject, h.extensions⟩

/-- A record that is written is canonical but for its time. -/
theorem of_write {bytes : Bytes} (h : r.write = .ok bytes) (htime : ∀ t ∈ r.time, Settled t) :
    r.Canonical := by
  obtain ⟨hcontentType, hschema, hsubject, hextensions⟩ := Record.exists_write_iff.mp ⟨bytes, h⟩
  exact ⟨hcontentType, hschema, hsubject, htime, hextensions⟩

/-- A canonical record is read back as it is. -/
theorem reads_write (h : r.Canonical) {bytes : Bytes} (hwrite : r.write = .ok bytes)
    (hlen : bytes.length < 2 ^ 63) : Reads Record.read bytes r := by
  obtain ⟨time, hinstant, -, hread⟩ := Record.reads_write fun t ht => (h.time t ht).inCalendar
  have hreads := hread bytes hwrite hlen
  have hback : Record.Canonical { r with time := time } := Record.yields_read (hreads [])
  -- The time that is read back is settled as well, and at the same instant.
  obtain rfl : time = r.time := eq_of_map_instant hback.time h.time hinstant
  exact hreads

end Record.Canonical

end CloudEnvelope.Avro
