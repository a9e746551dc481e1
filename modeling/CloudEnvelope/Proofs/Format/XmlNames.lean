import CloudEnvelope.Proofs.Format.XmlDocument
import CloudEnvelope.Proofs.Text.CodePointSet

/-!
# The names of extensions as names of elements

A name is accepted for an element when it is an identifier, hyphens taken for low lines.  A name of
the grammar of XML is something else, but the tables of both agree up to four characters
(`XmlEnvelope.identifierOnly`), and a hyphen that stands for a low line may stand at the front.
`XmlEnvelope.isNCName_iff_of_isElementName`: these are all the ways in which a name that is accepted
is none of the grammar, and `XmlEnvelope.elementNames_of_serialize` finds the same of the elements
that are written.
-/

namespace CloudEnvelope.XmlEnvelope

open Xml CodePointSet

/-- The characters that identifiers may hold and names may not. -/
def identifierOnly : List Char := ['\u00AA', '\u00B5', '\u00BA', '\u2054']

/-! ### Tables -/

/-- The run is one of the characters that identifiers alone may hold, or lies in one of the
ranges. -/
def runFits (ranges : List (Nat × Nat)) (first next : Nat) : Bool :=
  (first + 1 == next && identifierOnly.any (·.toNat == first)) ||
    ranges.any fun r => r.1 ≤ first && next ≤ r.2 + 1

/-- The ranges of names, with two that touch each other also taken as one. -/
def joinedParts : List (Nat × Nat) := (0x300, 0x37D) :: Grammar.nameParts

theorem allRuns_identifierStart :
    allRuns (runFits Grammar.nameStarts) identifierStart.boundaries := by
  decide +kernel

theorem allRuns_identifierContinue :
    allRuns (runFits joinedParts) identifierContinue.boundaries := by
  decide +kernel

/-- A code point that stands in a run that fits is one of the characters that identifiers alone may
hold, or a character in one of the ranges, if these hold no surrogates. -/
theorem exists_char_of_runs {ranges : List (Nat × Nat)} {s : CodePointSet}
    (hranges : ∀ r ∈ ranges, r.2 < 0xD800 ∨ 0xE000 ≤ r.1)
    (hs : allRuns (runFits ranges) s.boundaries) {c : CodePoint} (hc : s.contains c.toNat) :
    ∃ d, c = .scalar d ∧ (d ∈ identifierOnly ∨ Grammar.isIn ranges d) := by
  obtain ⟨first, next, hcheck, hfirst, hnext⟩ := exists_run hs hc
  simp only [runFits, Bool.or_eq_true, Bool.and_eq_true, beq_iff_eq, List.any_eq_true,
    decide_eq_true_eq] at hcheck
  rcases hcheck with ⟨hsingle, d, hd, hfound⟩ | ⟨r, hr, hlow, hhigh⟩
  · have hc : c.toNat = d.toNat := by omega
    exact ⟨d, CodePoint.toNat_inj.mp hc, .inl hd⟩
  · cases c with
    | lone half =>
      have hrange := hranges r hr
      simp only [CodePoint.toNat] at hfirst hnext
      omega
    | scalar d =>
      refine ⟨d, rfl, .inr ?_⟩
      simp only [Grammar.isIn, List.any_eq_true, Bool.and_eq_true, decide_eq_true_eq]
      simp only [CodePoint.toNat] at hfirst hnext
      exact ⟨r, hr, by omega, by omega⟩

/-- A code point that may start an identifier may start a name, unless identifiers alone hold it. -/
theorem exists_nameStart {c : CodePoint} (h : identifierStart.contains c.toNat) :
    ∃ d, c = .scalar d ∧ (d ∈ identifierOnly ∨ Grammar.isNameStart d) :=
  exists_char_of_runs (by decide) allRuns_identifierStart h

/-- A code point that an identifier may go on with is part of a name, unless identifiers alone hold
it. -/
theorem exists_namePart {c : CodePoint} (h : identifierContinue.contains c.toNat) :
    ∃ d, c = .scalar d ∧ (d ∈ identifierOnly ∨ Grammar.isNamePart d) := by
  obtain ⟨d, rfl, hd⟩ := exists_char_of_runs (by decide) allRuns_identifierContinue h
  refine ⟨d, rfl, hd.imp_right fun hjoined => ?_⟩
  simp only [Grammar.isIn, joinedParts, List.any_cons, Bool.or_eq_true, Bool.and_eq_true,
    decide_eq_true_eq] at hjoined
  rcases hjoined with ⟨hlow, hhigh⟩ | hpart
  · rcases Nat.lt_or_ge d.toNat 0x370 with hmark | hletter
    · have hrange : Grammar.isIn [(0x300, 0x36F)] d := by
        simp [Grammar.isIn]; omega
      exact Grammar.isIn_of_isIn (by decide) hrange
    · have hrange : Grammar.isIn [(0x370, 0x37D)] d := by
        simp [Grammar.isIn]; omega
      exact Grammar.isIn_of_isIn (by decide) hrange
  · exact hpart

/-! ### Names -/

variable {name : Text}

/-- A code point that is no hyphen is still there when hyphens are replaced. -/
theorem mem_substitute {c : CodePoint} {t new : Text} (hc : c ∈ t) (hne : c ≠ .scalar '-') :
    c ∈ t.substitute '-' new := by
  refine List.mem_flatMap.mpr ⟨c, hc, ?_⟩
  rw [if_neg hne]
  exact List.mem_singleton_self c

/-- The first code point of a name that is accepted, and the others, hyphens taken for low lines. -/
theorem exists_cons_of_isElementName (h : isElementName name) : ∃ c rest, name = c :: rest ∧
    (c = .scalar '-' ∨ identifierStart.contains c.toNat) ∧
      ∀ d ∈ rest, d = .scalar '-' ∨ identifierContinue.contains d.toNat := by
  have hparts {c : CodePoint} {rest : Text} (hidentifier : Text.isIdentifier (c :: rest)) :
      identifierStart.contains c.toNat ∧ ∀ d ∈ rest, identifierContinue.contains d.toNat := by
    rwa [Text.isIdentifier, Bool.and_eq_true, List.all_eq_true] at hidentifier
  cases name with
  | nil => cases h
  | cons c rest =>
    refine ⟨c, rest, rfl, ?_⟩
    rcases Bool.or_eq_true_iff.mp h with h | h
    · obtain ⟨hstart, hrest⟩ := hparts h
      exact ⟨.inr hstart, fun d hd => .inr (hrest d hd)⟩
    · have hsubstitute : Text.substitute (c :: rest) '-' "_" =
          (if c = .scalar '-' then Text.ofString "_" else [c]) ++ Text.substitute rest '-' "_" :=
        List.flatMap_cons
      rw [hsubstitute] at h
      by_cases hc : c = .scalar '-'
      · rw [if_pos hc] at h
        exact ⟨.inl hc, fun d hd => or_iff_not_imp_left.mpr fun hne =>
          (hparts h).2 d (mem_substitute hd hne)⟩
      · rw [if_neg hc] at h
        obtain ⟨hstart, hrest⟩ := hparts h
        exact ⟨.inr hstart, fun d hd => or_iff_not_imp_left.mpr fun hne =>
          hrest d (mem_substitute hd hne)⟩

/-- A name that is accepted starts like one of the grammar, unless with a hyphen or with what
identifiers alone hold. -/
theorem exists_start {c : CodePoint} (h : identifierStart.contains c.toNat)
    (honly : ∀ d ∈ identifierOnly, c ≠ .scalar d) :
    ∃ d, c = .scalar d ∧ Grammar.isNameStart d ∧ d ≠ ':' := by
  obtain ⟨d, rfl, hd⟩ := exists_nameStart h
  refine ⟨d, rfl, hd.resolve_left fun hmem => honly d hmem rfl, ?_⟩
  rintro rfl
  exact absurd h (by decide)

/-- Behind its first code point a name that is accepted has parts of names and no colons, unless
identifiers alone hold one of them. -/
theorem exists_part {c : CodePoint} (h : c = .scalar '-' ∨ identifierContinue.contains c.toNat)
    (honly : ∀ d ∈ identifierOnly, c ≠ .scalar d) :
    ∃ d, c = .scalar d ∧ Grammar.isNamePart d ∧ d ≠ ':' := by
  rcases h with rfl | h
  · exact ⟨'-', rfl, by decide, by decide⟩
  · obtain ⟨d, rfl, hd⟩ := exists_namePart h
    refine ⟨d, rfl, hd.resolve_left fun hmem => honly d hmem rfl, ?_⟩
    rintro rfl
    exact absurd h (by decide)

theorem isNCName_iff_exists :
    Grammar.isNCName name ↔ ∃ cs, name = Text.ofChars cs ∧ Grammar.isName cs ∧ ':' ∉ cs := by
  rw [Grammar.isNCName]
  constructor
  · intro h
    split at h
    · rename_i cs hcs
      refine ⟨cs, Text.scalars?_eq_some_iff.mp hcs, ?_⟩
      simpa using h
    · cases h
  · rintro ⟨cs, rfl, hname, hcolon⟩
    rw [Text.scalars?_ofChars]
    simpa [hname] using hcolon

/-- No name of the grammar starts with a hyphen or holds what identifiers alone may hold. -/
theorem head?_ne_of_isName {cs : List Char} (h : Grammar.isName cs) :
    cs.head? ≠ some '-' ∧ ∀ c ∈ identifierOnly, c ∉ cs := by
  constructor
  · cases cs with
    | nil => cases h
    | cons c cs =>
      rintro ⟨⟩
      rw [Grammar.isName, Bool.and_eq_true] at h
      exact absurd h.1 (by decide)
  · intro c hc hmem
    have hforeign : identifierOnly.all (!Grammar.isNamePart ·) := by decide
    have hnot := List.all_eq_true.mp hforeign c hc
    rw [Grammar.isNamePart_of_mem h c hmem] at hnot
    cases hnot

/-- A name that is accepted is one of the grammar unless a hyphen stands at its front or identifiers
alone hold one of its characters. -/
theorem isNCName_iff_of_isElementName (h : isElementName name) : Grammar.isNCName name ↔
    name.head? ≠ some (.scalar '-') ∧ ∀ c ∈ identifierOnly, CodePoint.scalar c ∉ name := by
  rw [isNCName_iff_exists]
  constructor
  · rintro ⟨cs, rfl, hname, -⟩
    obtain ⟨hhead, honly⟩ := head?_ne_of_isName hname
    constructor
    · rw [Text.ofChars, List.head?_map]
      intro hhyphen
      obtain ⟨c, hc, hsame⟩ := Option.map_eq_some_iff.mp hhyphen
      exact hhead (CodePoint.scalar.inj hsame ▸ hc)
    · intro c hc hmem
      obtain ⟨d, hd, hsame⟩ := List.mem_map.mp hmem
      exact honly c hc (CodePoint.scalar.inj hsame ▸ hd)
  · rintro ⟨hhead, honly⟩
    have honly' : ∀ b ∈ name, ∀ d ∈ identifierOnly, b ≠ .scalar d := by
      rintro b hb d hd rfl
      exact honly d hd hb
    obtain ⟨c, rest, rfl, hc, hrest⟩ := exists_cons_of_isElementName h
    rw [List.forall_mem_cons] at honly'
    obtain ⟨d, rfl, hd, hcolon⟩ := exists_start (hc.resolve_left (by simpa using hhead)) honly'.1
    have hparts : ∀ b ∈ rest, ∃ e, b = .scalar e ∧ Grammar.isNamePart e ∧ e ≠ ':' := fun b hb =>
      exists_part (hrest b hb) (honly'.2 b hb)
    obtain ⟨ds, rfl⟩ := Text.loneFree_iff.mp fun half hhalf => by
      obtain ⟨e, he, -⟩ := hparts _ hhalf
      cases he
    have hds : ∀ e ∈ ds, Grammar.isNamePart e ∧ e ≠ ':' := fun e he => by
      obtain ⟨_, ⟨⟩, h⟩ := hparts _ (List.mem_map_of_mem he)
      exact h
    refine ⟨d :: ds, rfl, ?_, ?_⟩
    · rw [Grammar.isName, Bool.and_eq_true, List.all_eq_true]
      exact ⟨hd, fun e he => (hds e he).1⟩
    · rw [List.mem_cons, not_or]
      exact ⟨hcolon.symm, fun hmem => (hds ':' hmem).2 rfl⟩

/-! ### Events -/

/-- Every extension is written as an element of its name, and this name is one of the grammar unless
a hyphen stands at its front or identifiers alone hold one of its characters. -/
theorem elementNames_of_serialize {e : Event} {raw : Bytes}
    (h : EventFormat.xml.serialize e = .ok raw) :
    ∃ root, root? raw = some root ∧ ∀ x ∈ e.extensions.entries,
      (∃ leaf ∈ root.children, leaf.name = x.1) ∧
        (Grammar.isNCName x.1 ↔
          x.1.head? ≠ some (.scalar '-') ∧ ∀ c ∈ identifierOnly, CodePoint.scalar c ∉ x.1) := by
  obtain ⟨xs, hxs, hnames, -⟩ := serialize_eq_ok_iff.mp h
  obtain ⟨ys, hys, hroot⟩ := root?_of_serialize h
  obtain rfl := Except.ok.inj (hxs.symm.trans hys)
  refine ⟨_, hroot, fun x hx => ?_⟩
  obtain ⟨y, hy, hname, -⟩ := ExtensionValue.exists_mem_of_ofEntries hxs hx
  rw [← hname]
  exact ⟨⟨leafOf y, mem_children_iff.mpr (.inr (.inl ⟨y, hy, rfl⟩)), rfl⟩,
    isNCName_iff_of_isElementName (hnames y hy).1⟩

theorem elementNames_of_serialize_markedUp :
    ∃ raw root, EventFormat.xml.serialize markedUp = .ok raw ∧ root? raw = some root ∧
      (∃ leaf ∈ root.children, leaf.name = "a-b") ∧ Grammar.isNCName "a-b" := by
  obtain ⟨raw, hraw⟩ : ∃ raw, EventFormat.xml.serialize markedUp = .ok raw := by
    rw [← Except.isSome_toOption_iff]
    decide +kernel
  obtain ⟨root, hroot, hnames⟩ := elementNames_of_serialize hraw
  have hmem : (("a-b", .text "]]>") : Text × Value) ∈ markedUp.extensions.entries :=
    List.mem_cons_self
  obtain ⟨hleaf, hname⟩ := hnames _ hmem
  exact ⟨raw, root, hraw, hroot, hleaf,
    hname.mpr ⟨by decide, by simp [identifierOnly, Text.ofString]⟩⟩

/-- An event with an extension whose name starts with a hyphen, and with one whose name is an
ordinal indicator. -/
def oddlyNamed : Event :=
  { about "s" with extensions := .ofList [("-a", .text "x"), ("\u00AA", .text "x")] }

/-- Both are written as elements, and neither name is one of the grammar. -/
theorem oddlyNamed_written :
    ∃ raw root, EventFormat.xml.serialize oddlyNamed = .ok raw ∧ root? raw = some root ∧
      ⟨"-a", [typed "xs:string"], "x"⟩ ∈ root.children ∧ ¬Grammar.isNCName "-a" ∧
      ⟨"\u00AA", [typed "xs:string"], "x"⟩ ∈ root.children ∧ ¬Grammar.isNCName "\u00AA" := by
  have hxs : ExtensionValue.ofEntries oddlyNamed.extensions.entries
      = .ok [("-a", .text "x"), ("\u00AA", .text "x")] := rfl
  obtain ⟨raw, hraw⟩ : ∃ raw, EventFormat.xml.serialize oddlyNamed = .ok raw := by
    rw [← Except.isSome_toOption_iff]
    decide +kernel
  obtain ⟨ys, hys, hroot⟩ := root?_of_serialize hraw
  obtain rfl := Except.ok.inj (hxs.symm.trans hys)
  have hwritten : ∀ x ∈ [(("-a" : Text), ExtensionValue.text "x"), ("\u00AA", .text "x")],
      leafOf x ∈ (elementOf oddlyNamed [("-a", .text "x"), ("\u00AA", .text "x")]).children :=
    fun x hx => mem_children_iff.mpr (.inr (.inl ⟨x, hx, rfl⟩))
  exact ⟨raw, _, hraw, hroot, hwritten _ List.mem_cons_self, by decide,
    hwritten _ (List.mem_cons_of_mem _ List.mem_cons_self), by decide⟩

end CloudEnvelope.XmlEnvelope
