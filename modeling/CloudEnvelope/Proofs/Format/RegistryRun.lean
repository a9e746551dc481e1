import CloudEnvelope.Proofs.Format.Registry
import CloudEnvelope.Proofs.Text.Split
import Mathlib.Data.List.Nodup

/-!
# Runs of calls on one registry

A registry that is changed in place may be called again after a call that failed.  The call writes
to the registry what `FormatRegistry.register` returns and leaves it as it was when it fails
(`FormatRegistry.call_eq`), so after any calls the registry holds the formats whose registration
succeeded, in order (`FormatRegistry.entries_after`).

`Answers` says what a request is answered among these formats without speaking of a search: the
format of the very type, or else the first format of a structured type in its syntax, or a failure.
`FormatRegistry.registry_run` puts the laws of all runs together.
-/

namespace CloudEnvelope

namespace MediaType

variable {key top syntaxName : Text}

/-- The key asks for the plain type `top/syntaxName`. -/
def IsPlain (key top syntaxName : Text) : Prop :=
  key = top ++ .scalar '/' :: syntaxName ∧ .scalar '/' ∉ top ∧ .scalar '+' ∉ key

/-- The key is a structured type `top/…+syntaxName`, such as `application/cloudevents+json`. -/
def IsStructured (key top syntaxName : Text) : Prop :=
  ∃ name, key = top ++ .scalar '/' :: (name ++ .scalar '+' :: syntaxName) ∧ .scalar '/' ∉ top ∧
    .scalar '+' ∉ syntaxName

/-- What is split at the first slash is a part without slashes and a rest, if it has a slash. -/
theorem split_eq_of_append {rest : Text} (htop : CodePoint.scalar '/' ∉ top) :
    split (top ++ .scalar '/' :: rest) = (top, rest) := by
  rw [split, Text.splitFirst_append htop]
  rfl

theorem isPlain_iff_exists :
    FormatRegistry.isPlain key ↔ ∃ top syntaxName, IsPlain key top syntaxName := by
  unfold FormatRegistry.isPlain
  rw [Bool.and_eq_true, List.contains_iff_mem, Bool.not_eq_true', List.contains_eq_mem,
    decide_eq_false_iff_not]
  constructor
  · rintro ⟨hslash, hplus⟩
    obtain ⟨top, rest, rfl, htop⟩ := List.eq_append_cons_of_mem hslash
    exact ⟨top, rest, rfl, htop, hplus⟩
  · rintro ⟨top, rest, rfl, -, hplus⟩
    exact ⟨List.mem_append_right _ List.mem_cons_self, hplus⟩

theorem IsPlain.split_eq (h : IsPlain key top syntaxName) : split key = (top, syntaxName) := by
  obtain ⟨rfl, htop, -⟩ := h
  exact split_eq_of_append htop

theorem structured?_eq_some_iff :
    structured? key = some (top, syntaxName) ↔ IsStructured key top syntaxName := by
  by_cases hslash : CodePoint.scalar '/' ∈ key
  · obtain ⟨top', rest, rfl, htop'⟩ := List.eq_append_cons_of_mem hslash
    rw [structured?, split_eq_of_append htop']
    show (Text.afterLast? '+' rest).map _ = _ ↔ _
    simp only [Option.map_eq_some_iff, Text.afterLast?_eq_some_iff, Prod.mk.injEq]
    constructor
    · rintro ⟨_, ⟨name, rfl, hplus⟩, rfl, rfl⟩
      exact ⟨name, rfl, htop', hplus⟩
    · rintro ⟨name, hkey, htop, hplus⟩
      -- Both splits are at the first slash.
      have hsplit := congrArg split hkey
      rw [split_eq_of_append htop', split_eq_of_append htop] at hsplit
      cases hsplit
      exact ⟨syntaxName, ⟨name, rfl, hplus⟩, rfl, rfl⟩
  · have hnone : structured? key = none := by
      rw [structured?, split, Text.splitFirst_of_notMem hslash]
      rfl
    rw [hnone]
    constructor
    · rintro ⟨⟩
    · rintro ⟨name, rfl, -⟩
      exact absurd (List.mem_append_right _ List.mem_cons_self) hslash

end MediaType

namespace FormatRegistry

open EventFormat

variable {r r' : FormatRegistry} {fs : List EventFormat} {f : EventFormat} {mediaType : Text}

/-! ### Answers to requests -/

/-- What a request is answered when `fs` were registered, in this order. -/
inductive Answers (fs : List EventFormat) (mediaType : Text) : Except Failure EventFormat → Prop
  | exact {f : EventFormat} (hf : f ∈ fs) (hkey : f.key = MediaType.normalize mediaType) :
      Answers fs mediaType (.ok f)
  | structured {before after : List EventFormat} {f : EventFormat} {top syntaxName : Text}
      (hexact : ∀ g ∈ fs, g.key ≠ MediaType.normalize mediaType)
      (hplain : MediaType.IsPlain (MediaType.normalize mediaType) top syntaxName)
      (hfs : fs = before ++ f :: after) (hf : MediaType.IsStructured f.key top syntaxName)
      (hbefore : ∀ g ∈ before, ¬MediaType.IsStructured g.key top syntaxName) :
      Answers fs mediaType (.ok f)
  | unsupported (hexact : ∀ g ∈ fs, g.key ≠ MediaType.normalize mediaType)
      (hstructured : ∀ top syntaxName,
        MediaType.IsPlain (MediaType.normalize mediaType) top syntaxName →
          ∀ g ∈ fs, ¬MediaType.IsStructured g.key top syntaxName) :
      Answers fs mediaType (.error (.unsupportedFormat mediaType (fs.map key)))

theorem get?_eq_some_iff (h : r.formats.entries = fs.map entry) {key : Text} :
    r.formats.get? key = some f ↔ f ∈ fs ∧ f.key = key := by
  rw [OrderedMap.get?_eq_some_iff, h, List.mem_map]
  constructor
  · rintro ⟨g, hg, ⟨⟩⟩
    exact ⟨hg, rfl⟩
  · rintro ⟨hf, rfl⟩
    exact ⟨f, hf, rfl⟩

theorem get?_eq_none_iff (h : r.formats.entries = fs.map entry) {key : Text} :
    r.formats.get? key = none ↔ ∀ g ∈ fs, g.key ≠ key := by
  rw [Option.eq_none_iff_forall_ne_some]
  constructor
  · intro hnone g hg hkey
    exact hnone g ((get?_eq_some_iff h).mpr ⟨hg, hkey⟩)
  · intro hnone g hget
    obtain ⟨hg, hkey⟩ := (get?_eq_some_iff h).mp hget
    exact hnone g hg hkey

/-- A structured type in the syntax of a plain type is searched among the formats in order. -/
theorem structured?_of_isPlain (h : r.formats.entries = fs.map entry) {key top syntaxName : Text}
    (hplain : MediaType.IsPlain key top syntaxName) : r.structured? key
      = fs.find? fun g => MediaType.structured? g.key == some (top, syntaxName) := by
  rw [structured?, if_pos (MediaType.isPlain_iff_exists.mpr ⟨top, syntaxName, hplain⟩), h,
    hplain.split_eq, List.find?_map, Option.map_map]
  exact Option.map_id'

/-- The search finds the first format of such a type. -/
theorem find?_isStructured_iff {top syntaxName : Text} :
    (fs.find? fun g => MediaType.structured? g.key == some (top, syntaxName)) = some f ↔
      MediaType.IsStructured f.key top syntaxName ∧ ∃ before after, fs = before ++ f :: after ∧
        ∀ g ∈ before, ¬MediaType.IsStructured g.key top syntaxName := by
  simp only [List.find?_eq_some_iff_append, beq_iff_eq, Bool.not_eq_true', beq_eq_false_iff_ne,
    ne_eq, MediaType.structured?_eq_some_iff]

/-- The registry answers a request as the formats that it holds do. -/
theorem answers_get (h : r.formats.entries = fs.map entry) (mediaType : Text) :
    Answers fs mediaType (r.get mediaType) := by
  have hmediaTypes : r.mediaTypes = fs.map EventFormat.key := by
    rw [mediaTypes, OrderedMap.keys, h, map_fst_entry]
  unfold FormatRegistry.get FormatRegistry.find?
  rcases hget : r.formats.get? (MediaType.normalize mediaType) with _ | f
  · have hexact := (get?_eq_none_iff h).mp hget
    rw [Option.none_or]
    by_cases hplain : isPlain (MediaType.normalize mediaType)
    · obtain ⟨top, syntaxName, hplain⟩ := MediaType.isPlain_iff_exists.mp hplain
      rw [structured?_of_isPlain h hplain]
      cases hfind : fs.find? fun g => MediaType.structured? g.key == some (top, syntaxName) with
      | none =>
        simp only [List.find?_eq_none, beq_iff_eq, MediaType.structured?_eq_some_iff] at hfind
        rw [hmediaTypes]
        refine .unsupported hexact fun top' syntaxName' hplain' => ?_
        -- A key is plain in one way only.
        obtain ⟨rfl, rfl⟩ := Prod.mk.inj (hplain.split_eq.symm.trans hplain'.split_eq)
        exact hfind
      | some f =>
        obtain ⟨hf, before, after, hfs, hbefore⟩ := find?_isStructured_iff.mp hfind
        exact .structured hexact hplain hfs hf hbefore
    · rw [structured?, if_neg hplain, hmediaTypes]
      exact .unsupported hexact fun top syntaxName hplain' =>
        absurd (MediaType.isPlain_iff_exists.mpr ⟨top, syntaxName, hplain'⟩) hplain
  · obtain ⟨hf, hkey⟩ := (get?_eq_some_iff h).mp hget
    rw [Option.some_or]
    exact .exact hf hkey

/-- Formats of different media types leave one answer to a request. -/
theorem Answers.unique (hnodup : (fs.map key).Nodup) {answer answer' : Except Failure EventFormat}
    (h : Answers fs mediaType answer) (h' : Answers fs mediaType answer') : answer = answer' := by
  cases h with
  | exact hf hkey =>
    cases h' with
    | exact hf' hkey' =>
      have hsame := List.inj_on_of_nodup_map hnodup hf hf' (hkey.trans hkey'.symm)
      rw [hsame]
    | structured hexact => exact absurd hkey (hexact _ hf)
    | unsupported hexact => exact absurd hkey (hexact _ hf)
  | structured hexact hplain hfs hf hbefore =>
    cases h' with
    | exact hf' hkey' => exact absurd hkey' (hexact _ hf')
    | structured _ hplain' hfs' hf' hbefore' =>
      obtain ⟨rfl, rfl⟩ := Prod.mk.inj (hplain.split_eq.symm.trans hplain'.split_eq)
      have hfind := find?_isStructured_iff.mpr ⟨hf, _, _, hfs, hbefore⟩
      have hfind' := find?_isStructured_iff.mpr ⟨hf', _, _, hfs', hbefore'⟩
      exact congrArg Except.ok (Option.some.inj (hfind.symm.trans hfind'))
    | unsupported _ hstructured =>
      exact absurd hf (hstructured _ _ hplain _ (hfs ▸ List.mem_append_right _ List.mem_cons_self))
  | unsupported hexact hstructured =>
    cases h' with
    | exact hf' hkey' => exact absurd hkey' (hexact _ hf')
    | structured _ hplain hfs hf =>
      exact absurd hf (hstructured _ _ hplain _ (hfs ▸ List.mem_append_right _ List.mem_cons_self))
    | unsupported => rfl

/-- The registry answers a request in the way that the formats that it holds leave. -/
theorem get_eq_iff (h : r.formats.entries = fs.map entry) {answer : Except Failure EventFormat} :
    r.get mediaType = answer ↔ Answers fs mediaType answer := by
  have hnodup : (fs.map key).Nodup := by
    rw [← map_fst_entry, ← h]
    exact r.formats.nodup
  constructor
  · rintro rfl
    exact answers_get h mediaType
  · exact (answers_get h mediaType).unique hnodup

/-- A format that comes later leaves the formats that were found, but for requests of its type. -/
theorem Answers.append {g : EventFormat} (h : Answers fs mediaType (.ok g))
    (hother : MediaType.normalize mediaType ≠ f.key) : Answers (fs ++ [f]) mediaType (.ok g) := by
  cases h with
  | exact hg hkey => exact .exact (List.mem_append_left _ hg) hkey
  | structured hexact hplain hfs hg hbefore =>
    refine .structured ?_ hplain (hfs ▸ List.append_assoc ..) hg hbefore
    intro g' hg'
    rcases List.mem_append.mp hg' with hg' | hg'
    · exact hexact g' hg'
    · rw [List.mem_singleton.mp hg']
      exact hother.symm

/-! ### Calls -/

/-- Registers a format in place: what is written before a failure stays written. -/
def enter : Supplied EventFormat → ExceptT ConfigurationIssue (StateM FormatRegistry) Unit
  | .foreign typeName => throw (.notFormat typeName)
  | .component f => do
    let r ← getThe FormatRegistry
    if r.formats.contains f.key then throw (.duplicateMediaType f.key)
    set (FormatRegistry.mk (r.formats.insert f.key f))

/-- A call on a registry: the answer, and the registry after it. -/
def call (r : FormatRegistry) (x : Supplied EventFormat) :
    Except ConfigurationIssue Unit × FormatRegistry :=
  (enter x).run.run r

/-- A call that succeeds leaves the registry with the format, and one that fails leaves it as it
was. -/
theorem call_eq (r : FormatRegistry) (x : Supplied EventFormat) : r.call x =
    match r.register x with
    | .ok r' => (.ok (), r')
    | .error issue => (.error issue, r) := by
  cases x with
  | foreign typeName => rfl
  | component f =>
    have hcall : r.call (.component f) = if r.formats.contains f.key
        then (.error (.duplicateMediaType f.key), r)
        else (.ok (), ⟨r.formats.insert f.key f⟩) := by
      unfold call enter
      show StateT.run (ExceptT.run (if r.formats.contains f.key then _ else _)) r = _
      split <;> rfl
    have hregister : r.register (.component f) = if r.formats.contains f.key
        then .error (.duplicateMediaType f.key)
        else .ok ⟨r.formats.insert f.key f⟩ := rfl
    rw [hcall, hregister]
    by_cases htaken : r.formats.contains f.key
    · rw [if_pos htaken, if_pos htaken]
    · rw [if_neg htaken, if_neg htaken]

theorem call_component_iff : r.call (.component f) = (.ok (), r') ↔
    f.key ∉ r.mediaTypes ∧ r'.formats.entries = r.formats.entries ++ [f.entry] := by
  rw [call_eq, ← register_component_iff]
  cases r.register (.component f) <;> simp

/-- A call that fails leaves the registry as it was. -/
theorem eq_of_call_eq_error {x : Supplied EventFormat} {issue : ConfigurationIssue}
    (h : r.call x = (.error issue, r')) : r' = r := by
  rw [call_eq] at h
  cases hregister : r.register x <;> rw [hregister] at h <;> cases h
  rfl

/-- Calls one after another, whether or not they fail: the answers, and the registry after them. -/
def callAll (r : FormatRegistry) :
    List (Supplied EventFormat) → List (Except ConfigurationIssue Unit) × FormatRegistry
  | [] => ([], r)
  | x :: rest =>
    let (answer, r') := r.call x
    let (answers, r'') := r'.callAll rest
    (answer :: answers, r'')

/-- The formats whose registration was answered with success, in order. -/
def succeeded (supplied : List (Supplied EventFormat))
    (answers : List (Except ConfigurationIssue Unit)) : List EventFormat :=
  (supplied.zip answers).filterMap fun
    | (.component f, .ok ()) => some f
    | _ => none

/-- A call adds its format at the end if it succeeds, and nothing else. -/
theorem entries_call (r : FormatRegistry) (x : Supplied EventFormat) :
    (r.call x).2.formats.entries =
      r.formats.entries ++ (succeeded [x] [(r.call x).1]).map entry := by
  rcases hcall : r.call x with ⟨issue | _, r'⟩
  · have hsame := eq_of_call_eq_error hcall
    have hnone : succeeded [x] [.error issue] = [] := by cases x <;> rfl
    rw [hsame, hnone, List.map_nil, List.append_nil]
  · cases x with
    | foreign typeName => cases hcall
    | component f => exact (call_component_iff.mp hcall).2

/-- A run adds the formats whose registration succeeded at the end, in order. -/
theorem entries_callAll (r : FormatRegistry) (supplied : List (Supplied EventFormat)) :
    (r.callAll supplied).2.formats.entries =
      r.formats.entries ++ (succeeded supplied (r.callAll supplied).1).map entry := by
  induction supplied generalizing r with
  | nil => exact (List.append_nil _).symm
  | cons x rest ih =>
    have hsucceeded : succeeded (x :: rest) (r.callAll (x :: rest)).1 =
        succeeded [x] [(r.call x).1] ++ succeeded rest ((r.call x).2.callAll rest).1 :=
      List.filterMap_append (l := [_])
    show ((r.call x).2.callAll rest).2.formats.entries = _
    rw [ih, entries_call, hsucceeded, List.map_append, List.append_assoc]

/-- The formats whose registration succeeded among calls on the empty registry. -/
def entered (supplied : List (Supplied EventFormat)) : List EventFormat :=
  succeeded supplied (empty.callAll supplied).1

/-- The empty registry after calls. -/
def after (supplied : List (Supplied EventFormat)) : FormatRegistry := (empty.callAll supplied).2

theorem entries_after (supplied : List (Supplied EventFormat)) :
    (after supplied).formats.entries = (entered supplied).map entry :=
  entries_callAll empty supplied

/-- The laws of a registry after any calls.  Its media types are those of the formats whose
registration succeeded, in order and each once.  A call that fails leaves it as it was.  Each of the
formats is found under its media type, and every request is answered as the formats leave it.  A
format that is added leaves every format that was found, but for requests of its own type. -/
theorem registry_run (supplied : List (Supplied EventFormat)) :
    (after supplied).mediaTypes = (entered supplied).map key ∧
      ((entered supplied).map key).Nodup ∧
      (∀ x issue r', (after supplied).call x = (.error issue, r') → r' = after supplied) ∧
      (∀ f ∈ entered supplied, (after supplied).get f.mediaType = .ok f) ∧
      (∀ mediaType answer,
        (after supplied).get mediaType = answer ↔ Answers (entered supplied) mediaType answer) ∧
      ∀ f r', (after supplied).call (.component f) = (.ok (), r') →
        ∀ mediaType g, (after supplied).get mediaType = .ok g →
          MediaType.normalize mediaType ≠ f.key → r'.get mediaType = .ok g := by
  have hentries := entries_after supplied
  have hmediaTypes : (after supplied).mediaTypes = (entered supplied).map key := by
    rw [mediaTypes, OrderedMap.keys, hentries, map_fst_entry]
  refine ⟨hmediaTypes, hmediaTypes ▸ (after supplied).formats.nodup, ?_, ?_, ?_, ?_⟩
  · intro x issue r' h
    exact eq_of_call_eq_error h
  · intro f hf
    exact (get_eq_iff hentries).mpr (.exact hf rfl)
  · intro mediaType answer
    exact get_eq_iff hentries
  · intro f r' hcall mediaType g hget hother
    obtain ⟨-, hentries'⟩ := call_component_iff.mp hcall
    rw [hentries, ← List.map_singleton, ← List.map_append] at hentries'
    rw [get_eq_iff hentries] at hget
    exact (get_eq_iff hentries').mpr (hget.append hother)

end FormatRegistry

end CloudEnvelope
