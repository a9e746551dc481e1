import CloudEnvelope.Proofs.Converter
import CloudEnvelope.Proofs.Transformer.Headers

/-!
# Headers of messages in binary mode

In binary mode the attributes and extensions of an event share the namespace of headers with the
headers that pass through.  Those of the event are written last, so each of them is found as the
event has it; but a header that passes through is found as well where the event has nothing under
its name.  `Transformer.transform_binary` says so for a whole transformation.
-/

namespace CloudEnvelope.Transformer

open MessageConverter (defaultPrefix contentTypeHeader framed)

variable {settings : Settings} {formats : List (Supplied EventFormat)} {t : Transformer}
  {room : Nat}

/-- A header of the message passes through: no extension pattern accepts its key. -/
def Passes (t : Transformer) (m : Message) (key : Text) (v : Value) : Prop :=
  t.classifier.outcome key = .unclassified ∧ m.headers.get? key = some v

theorem get?_passing_iff {m : Message} {key : Text} {v : Value} :
    (t.passing m.headers).get? key = some v ↔ t.Passes m key v := by
  rw [OrderedMap.get?_eq_some_iff, entries_passing, List.mem_filter, decide_eq_true_eq, Passes,
    OrderedMap.get?_eq_some_iff, and_comm]

theorem Constructed.strategy_of_converter {c : MessageConverter}
    (h : Constructed settings formats (some (.component c)) t) : t.strategy = .converter c := by
  have hstrategy := h.strategy
  cases formats with
  | nil => exact (Except.ok.inj hstrategy).symm
  | cons f rest => cases hstrategy

/-- A transformer with a converter gives what the converter makes of the event and of the headers
that pass through. -/
theorem transform_eq_ok_of_converter {c : MessageConverter} (hstrategy : t.strategy = .converter c)
    {m out : Message} {mediaType : Option Text} (h : t.transform m mediaType room = .ok out) :
    ∃ e, t.toEvent m room = .ok e ∧ c.convert e (t.passing m.headers) = .ok (some out) := by
  obtain ⟨e, he, hencode⟩ := Except.bind_eq_ok_iff.mp (Except.mapError_eq_ok_iff.mp h)
  refine ⟨e, he, ?_⟩
  simp only [encode, hstrategy] at hencode
  obtain ⟨result, hresult, hout⟩ := Except.bind_eq_ok_iff.mp hencode
  cases result with
  | none => cases hout
  | some m' =>
    cases hout
    exact hresult

/-- In binary mode the headers of an event come before those that pass through. -/
theorem get?_of_transform_binary
    (h : Constructed settings formats (some (.component (.binary defaultPrefix))) t)
    {m out : Message} {mediaType : Option Text} (hout : t.transform m mediaType room = .ok out) :
    ∃ e xs, t.toEvent m room = .ok e ∧ ExtensionValue.ofEntries e.extensions.entries = .ok xs ∧
      ∀ key v, out.headers.get? key = some v ↔ (key, v) ∈ framed defaultPrefix e xs ∨
        (∀ w, (key, w) ∉ framed defaultPrefix e xs) ∧ t.Passes m key v := by
  obtain ⟨e, he, hconvert⟩ := transform_eq_ok_of_converter h.strategy_of_converter hout
  obtain ⟨xs, hxs, -, rfl⟩ := MessageConverter.convert_binary_eq_ok_iff.mp hconvert
  refine ⟨e, xs, he, hxs, fun key v => ?_⟩
  have hnodup := MessageConverter.nodup_framed MessageConverter.defaultPrefix_append_ne hxs
  rw [MessageConverter.binaryHeaders_eq, OrderedMap.get?_insertAll_eq_some_iff hnodup,
    get?_passing_iff]

/-- In binary mode a receiver finds under the default start of header names each attribute and each
extension of the event as its text, and otherwise what passes through of the message; and it finds
the content type of the event, or what passes through if the event has none. -/
theorem transform_binary
    (hmake : make settings formats (some (.component (.binary defaultPrefix))) = .ok t)
    {m out : Message} {mediaType : Option Text} (h : t.transform m mediaType room = .ok out) :
    ∃ e, t.toEvent m room = .ok e ∧
      (∀ name v, out.headers.get? (defaultPrefix ++ name) = some v ↔
        (∃ text, e.Frames name text ∧ v = .text text) ∨
          (∀ text, ¬e.Frames name text) ∧ t.Passes m (defaultPrefix ++ name) v) ∧
      ∀ v, out.headers.get? contentTypeHeader = some v ↔
        (∃ text, e.dataContentType = some text ∧ v = .text text) ∨
          e.dataContentType = none ∧ t.Passes m contentTypeHeader v := by
  obtain ⟨e, xs, he, hxs, hget⟩ := get?_of_transform_binary (make_eq_ok_iff.mp hmake) h
  have hstart := MessageConverter.defaultPrefix_append_ne
  refine ⟨e, he, ?_, ?_⟩
  · intro name v
    rw [hget, MessageConverter.mem_framed_append_iff hstart hxs,
      MessageConverter.forall_notMem_framed_iff hstart hxs]
  · intro v
    have hnone : (∀ w, (contentTypeHeader, w) ∉ framed defaultPrefix e xs) ↔
        e.dataContentType = none := by
      simp only [MessageConverter.mem_framed_contentType_iff hstart hxs, not_exists, not_and,
        Option.eq_none_iff_forall_ne_some]
      exact ⟨fun hall text htype => hall _ text htype rfl,
        fun hall _ text htype => absurd htype (hall text)⟩
    rw [hget, MessageConverter.mem_framed_contentType_iff hstart hxs, hnone]

/-- A message with headers that look like those of an event in binary mode. -/
def strange : Message where
  payload := .bytes [1]
  headers := ⟨[("id", .text "1"), ("x-a", .text "a"), ("ce-role", .text "admin"),
    ("content-type", .text "text/html")], by decide⟩

/-- The message is transformed, and its event has an extension but no content type. -/
theorem exists_transform_strange : ∃ t out e,
    make guarded [] (some (.component (.binary defaultPrefix))) = .ok t ∧
      t.transform strange none = .ok out ∧ t.toEvent strange = .ok e ∧
        e.extensions.entries = [(Text.ofString "x-a", .text "a")] ∧ e.dataContentType = none := by
  have hok : ((make guarded [] (some (.component (.binary defaultPrefix)))).toOption.bind fun t =>
      (t.transform strange none).toOption.bind fun out => (t.toEvent strange).toOption.filter
        fun e => decide (e.dataContentType = none)).isSome := by decide +kernel
  obtain ⟨e, he⟩ := Option.isSome_iff_exists.mp hok
  obtain ⟨t, ht, he⟩ := Option.bind_eq_some_iff.mp he
  obtain ⟨out, hout, he⟩ := Option.bind_eq_some_iff.mp he
  obtain ⟨he, hnone⟩ := Option.filter_eq_some_iff.mp he
  rw [Except.toOption_eq_some_iff] at ht hout he
  refine ⟨t, out, e, ht, hout, he, ?_, of_decide_eq_true hnone⟩
  rw [extensions_of_toEvent he, classifier_of_guarded ht]
  rfl

theorem transform_binary_strange : ∃ t out e,
    make guarded [] (some (.component (.binary defaultPrefix))) = .ok t ∧
      t.transform strange none = .ok out ∧ t.toEvent strange = .ok e ∧
        e.Frames "x-a" "a" ∧ out.headers.get? (defaultPrefix ++ "x-a") = some (.text "a") := by
  obtain ⟨t, out, e₀, ht, hout, hstrange, hextensions, -⟩ := exists_transform_strange
  obtain ⟨e, he, hnames, -⟩ := transform_binary ht hout
  obtain rfl := Except.ok.inj (he.symm.trans hstrange)
  have hframes : e.Frames "x-a" "a" :=
    .extension (x := .text "a") (hextensions ▸ List.mem_cons_self) rfl
  exact ⟨t, out, e, ht, hout, he, hframes, (hnames _ _).mpr (.inl ⟨_, hframes, rfl⟩)⟩

/-- A header that passes through is taken for an extension, and another for the content type, where
the event has neither. -/
theorem strange_framed : ∃ t out e,
    make guarded [] (some (.component (.binary defaultPrefix))) = .ok t ∧
      t.transform strange none = .ok out ∧ t.toEvent strange = .ok e ∧
        (out.headers.get? (defaultPrefix ++ "role") = some (.text "admin") ∧
          ∀ text, ¬e.Frames "role" text) ∧
        out.headers.get? contentTypeHeader = some (.text "text/html") ∧
          e.dataContentType = none := by
  obtain ⟨t, out, e₀, ht, hout, hstrange, hextensions, hnone⟩ := exists_transform_strange
  obtain ⟨e, xs, he, hxs, hget⟩ := get?_of_transform_binary (make_eq_ok_iff.mp ht) hout
  obtain rfl := Except.ok.inj (he.symm.trans hstrange)
  have hstart := MessageConverter.defaultPrefix_append_ne
  have hclassifier := classifier_of_guarded ht
  have hframes : ∀ text, ¬e.Frames "role" text := by
    intro text h
    rcases h.name_mem with hattribute | hextension
    · exact absurd hattribute (by decide)
    · rw [OrderedMap.keys, hextensions] at hextension
      exact absurd hextension (by decide)
  refine ⟨t, out, e, ht, hout, he, ⟨(hget _ _).mpr (.inr ⟨?_, ?_, rfl⟩), hframes⟩,
    (hget _ _).mpr (.inr ⟨?_, ?_, rfl⟩), hnone⟩
  · rwa [MessageConverter.forall_notMem_framed_iff hstart hxs]
  · rw [hclassifier]
    decide
  · intro w
    rw [MessageConverter.mem_framed_contentType_iff hstart hxs, hnone]
    simp
  · rw [hclassifier]
    decide

end CloudEnvelope.Transformer
