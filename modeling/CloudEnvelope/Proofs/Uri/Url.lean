import CloudEnvelope.Uri.Url
import CloudEnvelope.Proofs.Text.Lowercase
import CloudEnvelope.Proofs.Text.Utf8
import CloudEnvelope.Proofs.Uri.Address

/-!
# The parts of URLs

Every URL is written from parts that can be told apart (`Url.exists_parts`): a scheme, an authority
whose user information, host and number hold none of the marks between them, segments after slashes,
a query and a fragment, all in visible ASCII.  A path that does not start with a slash is the one
place where a space may stand (`Url.Path.IsBare`).
-/

namespace CloudEnvelope

namespace Url

/-! ### Characters -/

/-- A character of ASCII that shows. -/
def IsVisible (c : Char) : Prop := 0x21 ≤ c.toNat ∧ c.toNat ≤ 0x7E

instance (c : Char) : Decidable (IsVisible c) := inferInstanceAs (Decidable (_ ∧ _))

/-- The marks that end an authority, or that part it. -/
def delimiters : List Char := "/?#@[]".toList

/-- A character that stands inside a part of an authority. -/
def IsInner (c : Char) : Prop := IsVisible c ∧ c ∉ delimiters

instance (c : Char) : Decidable (IsInner c) := inferInstanceAs (Decidable (_ ∧ _))

variable {cs listed : List Char} {c d : Char}

/-- What holds of the numbers of ASCII holds of its characters. -/
theorem of_ascii {motive : Char → Prop} (h : ∀ n < 0x80, motive (Char.ofNat n))
    (hc : c.toNat < 0x80) : motive c := by
  have hchar := h c.toNat hc
  rwa [Char.ofNat_toNat] at hchar

theorem isInner_of_isHexDigit (h : Address.isHexDigit c) : IsInner c := by
  have hlt : c.toNat < 0x80 := by
    simp only [Address.isHexDigit, Char.isDigit, Bool.or_eq_true, Bool.and_eq_true,
      decide_eq_true_eq, Char.le_def, ge_iff_le, UInt32.le_iff_toNat_le] at h
    rcases h with (h | h) | h <;> exact Nat.lt_of_le_of_lt h.2 (by decide)
  exact of_ascii (motive := fun c => Address.isHexDigit c → IsInner c) (by decide +kernel) hlt h

theorem isInner_of_isDigit (h : c.isDigit) : IsInner c := by
  refine isInner_of_isHexDigit ?_
  rw [Address.isHexDigit, h]
  rfl

theorem bounds_of_isAlpha (h : c.isAlpha) : 0x41 ≤ c.toNat ∧ c.toNat ≤ 0x7A := by
  rcases Bool.or_eq_true_iff.mp h with hcapital | hsmall
  · obtain ⟨hlow, hhigh⟩ := of_decide_eq_true hcapital
    have hle : c.toNat ≤ 0x5A := UInt32.le_iff_toNat_le.mp hhigh
    exact ⟨UInt32.le_iff_toNat_le.mp hlow, by omega⟩
  · obtain ⟨hlow, hhigh⟩ := Bool.and_eq_true_iff.mp hsmall
    have hge : 0x61 ≤ c.toNat := UInt32.le_iff_toNat_le.mp (of_decide_eq_true hlow)
    exact ⟨by omega, UInt32.le_iff_toNat_le.mp (of_decide_eq_true hhigh)⟩

theorem isVisible_of_isSchemeChar (h : UriReference.isSchemeChar c) : IsVisible c := by
  have hlt : c.toNat < 0x80 := by
    simp only [UriReference.isSchemeChar, Char.isAlphanum, Bool.or_eq_true, beq_iff_eq] at h
    rcases h with (((halpha | hdigit) | rfl) | rfl) | rfl
    · exact Nat.lt_of_le_of_lt (bounds_of_isAlpha halpha).2 (by decide)
    · exact Nat.lt_of_le_of_lt (isInner_of_isDigit hdigit).1.2 (by decide)
    all_goals decide
  exact of_ascii (motive := fun c => UriReference.isSchemeChar c → IsVisible c) (by decide +kernel)
    hlt h

theorem isInner_of_mem_percentEncode (h : d ∈ percentEncode c) : IsInner d := by
  have hdigit : ∀ n < 16, IsInner (hexDigit n) := by decide
  obtain ⟨b, -, hb⟩ := List.mem_flatMap.mp h
  simp only [List.mem_cons, List.not_mem_nil, or_false] at hb
  rcases hb with rfl | rfl | rfl
  · decide
  · exact hdigit _ (Nat.div_lt_of_lt_mul b.toNat_lt)
  · exact hdigit _ (Nat.mod_lt _ (by decide))

/-- An encoded character starts with a percent sign. -/
theorem exists_percentEncode (c : Char) : ∃ rest, percentEncode c = '%' :: rest := by
  have hne : Utf8.encodeChar c ≠ [] := by
    unfold Utf8.encodeChar
    simp only
    split
    · exact List.cons_ne_nil _ _
    · split
      · exact List.cons_ne_nil _ _
      · split <;> exact List.cons_ne_nil _ _
  obtain ⟨b, bs, hbytes⟩ := List.exists_cons_of_ne_nil hne
  exact ⟨_, by rw [percentEncode, hbytes, List.flatMap_cons]; rfl⟩

/-- What is left of a text after the encoding is printable ASCII that is not listed. -/
theorem of_mem_encodeAll (h : d ∈ encodeAll listed cs) :
    IsInner d ∨ d ∈ cs ∧ d ∉ listed ∧ (d = ' ' ∨ IsVisible d) := by
  obtain ⟨c, hc, hd⟩ := List.mem_flatMap.mp h
  split at hd
  · exact .inl (isInner_of_mem_percentEncode hd)
  · rename_i hkept
    obtain rfl := List.mem_singleton.mp hd
    simp only [not_or, Nat.not_lt, List.contains_iff_mem] at hkept
    refine .inr ⟨hc, hkept.2.2, ?_⟩
    rcases Nat.eq_or_lt_of_le hkept.1 with hspace | hvisible
    · exact .inl (Char.toNat_inj.mp hspace.symm)
    · exact .inr ⟨hvisible, hkept.2.1⟩

/-- Where spaces are encoded, all characters show. -/
theorem isVisible_of_mem_encodeAll (hspace : ' ' ∈ listed) (h : d ∈ encodeAll listed cs) :
    IsVisible d := by
  rcases of_mem_encodeAll h with hinner | ⟨-, hnot, rfl | hvisible⟩
  · exact hinner.1
  · exact absurd hspace hnot
  · exact hvisible

theorem isInner_of_mem_userSet (h : d ∈ encodeAll userSet cs) : IsInner d := by
  rcases of_mem_encodeAll h with hinner | ⟨-, hnot, -⟩
  · exact hinner
  · have hlisted : delimiters ⊆ userSet := by decide
    exact ⟨isVisible_of_mem_encodeAll (by decide) h, fun hmem => hnot (hlisted hmem)⟩

/-! ### Hosts -/

theorem toNat_lt_of_percentDecoded? {decoded : List Char}
    (h : Host.percentDecoded? cs = some decoded) : ∀ c ∈ decoded, c.toNat < 0x80 := by
  fun_induction Host.percentDecoded? cs generalizing decoded with
  | case1 =>
    obtain rfl := Option.some.inj h
    simp
  | case2 high low rest hhex hlt ih =>
    obtain ⟨more, hmore, rfl⟩ := Option.map_eq_some_iff.mp h
    rw [List.forall_mem_cons]
    refine ⟨?_, ih hmore⟩
    rwa [Utf8.toNat_ofNat (Or.inl (by omega))]
  | case3 => cases h
  | case4 high low rest hhex ih =>
    obtain ⟨more, hmore, rfl⟩ := Option.map_eq_some_iff.mp h
    rw [List.forall_mem_cons]
    exact ⟨by decide, ih hmore⟩
  | case5 c rest _ hlt ih =>
    obtain ⟨more, hmore, rfl⟩ := Option.map_eq_some_iff.mp h
    rw [List.forall_mem_cons]
    exact ⟨hlt, ih hmore⟩
  | case6 => cases h

theorem isInner_of_mem_writeVersion4 {n : Nat} (h : c ∈ Host.writeVersion4 n) : IsInner c := by
  rcases Address.mem_intercalate h with rfl | ⟨digits, hdigits, hc⟩
  · decide
  · obtain ⟨m, -, rfl⟩ := List.mem_map.mp hdigits
    exact isInner_of_isDigit (Nat.isDigit_of_mem_toDigits (by decide) (by decide) hc)

/-- The characters of the name of a host stand inside an authority. -/
def HostFits (h : Host) : Prop := ∀ cs, h = .name cs → ∀ c ∈ cs, IsInner c

theorem hostFits_literal (address : Version6) : HostFits (.literal address) := by
  rintro cs ⟨⟩

theorem hostFits_special {host : Host} (h : Host.special? cs = some host) : HostFits host := by
  obtain ⟨decoded, hdecoded, h⟩ := Option.bind_eq_some_iff.mp h
  simp only at h
  split at h
  · cases h
  · rename_i hallowed
    split at h
    · obtain ⟨n, -, rfl⟩ := Option.map_eq_some_iff.mp h
      rintro cs ⟨⟩ c hc
      exact isInner_of_mem_writeVersion4 hc
    · cases h
      rintro cs ⟨⟩ c hc
      obtain ⟨d, hd, hlower⟩ := List.mem_map.mp hc
      have hlt : c.toNat < 0x80 := by
        rw [← hlower]
        exact of_ascii (motive := fun d => d.toLower.toNat < 0x80) (by decide +kernel)
          (toNat_lt_of_percentDecoded? hdecoded d hd)
      have hallowed' : Host.isForbiddenInName c = false := by
        simp only [Bool.or_eq_true, List.any_eq_true, not_or, not_exists, not_and,
          Bool.not_eq_true] at hallowed
        exact hallowed.2 c hc
      exact of_ascii (motive := fun c => Host.isForbiddenInName c = false → IsInner c)
        (by decide +kernel) hlt hallowed'

theorem hostFits_of_host? {special : Bool} {host : Host} (h : host? special cs = some host) :
    HostFits host := by
  have hforbidden : ' ' :: delimiters ⊆ Host.forbidden := by decide
  unfold host? at h
  split at h
  · unfold Host.literal? at h
    split at h
    · obtain ⟨address, -, rfl⟩ := Option.map_eq_some_iff.mp h
      exact hostFits_literal address
    · cases h
  · split at h
    · exact hostFits_special h
    · split at h
      · cases h
      · rename_i hallowed
        cases h
        rintro cs ⟨⟩ c hc
        rcases of_mem_encodeAll hc with hinner | ⟨hmem, -, hvisible⟩
        · exact hinner
        · have hnot : c ∉ ' ' :: delimiters := fun hlisted =>
            hallowed (List.any_eq_true.mpr ⟨c, hmem, by simpa using hforbidden hlisted⟩)
          rw [List.mem_cons, not_or] at hnot
          exact ⟨hvisible.resolve_left hnot.1, hnot.2⟩

/-! ### Authorities -/

/-- User information and its at sign, or nothing. -/
def IsUserInfo (cs : List Char) : Prop :=
  cs = [] ∨ ∃ shown, cs = shown ++ ['@'] ∧ ∀ c ∈ shown, IsInner c

/-- A number after its colon, or nothing. -/
def IsPortNumber (cs : List Char) : Prop :=
  cs = [] ∨ ∃ digits, cs = ':' :: digits ∧ ∀ c ∈ digits, IsInner c

/-- The authority can be told apart: its parts hold none of the marks between them. -/
structure Authority.Fits (a : Authority) : Prop where
  user : IsUserInfo a.user
  host : HostFits a.host
  portNumber : IsPortNumber a.portNumber

theorem Authority.fits_empty : Authority.empty.Fits := by
  refine ⟨.inl rfl, ?_, .inl rfl⟩
  rintro cs ⟨⟩ c ⟨⟩

theorem isUserInfo_userInfo (cs : List Char) : IsUserInfo (userInfo cs) := by
  have hcases {shown : List Char} (h : ∀ c ∈ shown, IsInner c) :
      IsUserInfo (if shown.isEmpty then [] else shown ++ ['@']) := by
    split
    · exact .inl rfl
    · exact .inr ⟨shown, rfl, h⟩
  refine hcases fun c hc => ?_
  rcases List.mem_append.mp hc with hc | hc
  · exact isInner_of_mem_userSet hc
  · split at hc
    · cases hc
    · rcases List.mem_cons.mp hc with rfl | hc
      · decide
      · exact isInner_of_mem_userSet hc

theorem isPortNumber_of_portNumber? {k : Kind} {shown : List Char}
    (h : portNumber? k cs = some shown) : IsPortNumber shown := by
  rw [portNumber?] at h
  split at h
  · exact .inl (Option.some.inj h).symm
  · split at h
    · simp only at h
      split at h
      · cases h
      · split at h
        · exact .inl (Option.some.inj h).symm
        · refine .inr ⟨_, (Option.some.inj h).symm, fun c hc => isInner_of_isDigit ?_⟩
          exact Nat.isDigit_of_mem_toDigits (by decide) (by decide) hc
    · cases h

theorem fits_of_authority? {k : Kind} {a : Authority} (h : authority? k cs = some a) : a.Fits := by
  unfold authority? at h
  simp only at h
  split at h
  · cases h
  · simp only [Option.bind_eq_bind, Option.bind_eq_some_iff] at h
    obtain ⟨host, hhost, portNumber, hport, h⟩ := h
    cases h
    refine ⟨?_, hostFits_of_host? hhost, isPortNumber_of_portNumber? hport⟩
    show IsUserInfo ((Option.map userInfo (splitUser cs).1).getD [])
    cases (splitUser cs).1 with
    | none => exact .inl rfl
    | some user => exact isUserInfo_userInfo user

/-! ### Paths -/

namespace Path

/-- Segments after slashes, in characters that show. -/
def IsRooted (p : Path) : Prop := ∃ segments, p = rooted segments ∧ ∀ c ∈ p.write, IsVisible c

/-- A path that does not start with a slash; its characters show or are spaces. -/
def IsBare (p : Path) : Prop :=
  ∃ cs, p = bare cs ∧ cs.head? ≠ some '/' ∧ ∀ c ∈ cs, c = ' ' ∨ IsVisible c

end Path

theorem isRooted_path (k : Kind) (cs : List Char) : (path k cs).IsRooted := by
  unfold path
  split
  · exact ⟨_, rfl, by simp [Path.write]⟩
  · refine ⟨_, rfl, fun c hc => ?_⟩
    simp only [Path.write, List.mem_flatMap, List.mem_map, List.mem_cons] at hc
    obtain ⟨segment, ⟨raw, -, rfl⟩, rfl | hc⟩ := hc
    · decide
    · exact isVisible_of_mem_encodeAll (by decide) hc

theorem isBare_encodeAll (h : cs.head? ≠ some '/') : (Path.bare (encodeAll [] cs)).IsBare := by
  refine ⟨_, rfl, ?_, fun c hc => ?_⟩
  · cases cs with
    | nil => simp [encodeAll]
    | cons c cs =>
      rw [encodeAll, List.flatMap_cons]
      split
      · obtain ⟨rest, hrest⟩ := exists_percentEncode c
        rw [hrest]
        simp
      · simpa using h
  · rcases of_mem_encodeAll hc with hinner | ⟨-, -, hc⟩
    · exact .inr hinner.1
    · exact hc

/-- The authority of a URL can be told apart; its path follows the authority or a slash, or is a
bare one. -/
def PlaceFits (authority : Option Authority) (path : Path) : Prop :=
  (∀ a ∈ authority, a.Fits) ∧ (path.IsRooted ∨ authority = none ∧ path.IsBare)

theorem PlaceFits.rooted {a : Authority} (h : a.Fits) (k : Kind) (cs : List Char) :
    PlaceFits (some a) (path k cs) := by
  refine ⟨?_, .inl (isRooted_path k cs)⟩
  rintro _ ⟨⟩
  exact h

theorem placeFits_of_placed? {k : Kind} {authority : Option Authority} {path : Path}
    (h : placed? k cs = some (authority, path)) : PlaceFits authority path := by
  unfold placed? at h
  obtain ⟨a, ha, h⟩ := Option.map_eq_some_iff.mp h
  cases h
  refine .rooted ?_ _ _
  split at ha
  · exact Option.some.inj ha ▸ Authority.fits_empty
  · exact fits_of_authority? ha

theorem placeFits_of_filed? {authority : Option Authority} {path : Path}
    (h : filed? cs = some (authority, path)) : PlaceFits authority path := by
  unfold filed? at h
  simp only at h
  split at h
  · cases h
    exact .rooted Authority.fits_empty _ _
  · split at h
    · cases h
      exact .rooted Authority.fits_empty _ _
    · obtain ⟨host, hhost, h⟩ := Option.map_eq_some_iff.mp h
      cases h
      refine .rooted ⟨.inl rfl, ?_, .inl rfl⟩ _ _
      show HostFits (if host = .name "localhost".toList then .name [] else host)
      split
      · exact Authority.fits_empty.host
      · exact hostFits_of_host? hhost

theorem placeFits_of_body? {k : Kind} {authority : Option Authority} {path : Path}
    (h : body? k cs = some (authority, path)) : PlaceFits authority path := by
  unfold body? at h
  simp only at h
  split at h
  · exact placeFits_of_placed? h
  · split at h
    · exact placeFits_of_filed? h
    · cases h
      exact .rooted Authority.fits_empty _ _
  · split at h
    · exact placeFits_of_placed? h
    · rename_i hfew
      cases h
      refine ⟨?_, ?_⟩
      · rintro a ⟨⟩
      · split
        · exact .inl (isRooted_path _ _)
        · rename_i hnone
          refine .inr ⟨rfl, isBare_encodeAll ?_⟩
          have hslashes : (cs.takeWhile (Kind.isSlash .other)).length = 0 := by omega
          cases cs with
          | nil => simp
          | cons c cs =>
            rintro ⟨⟩
            simp [Kind.isSlash] at hslashes

/-! ### Queries and fragments -/

/-- Nothing, or a mark that ends an authority and a path, and characters that show. -/
def IsTrailer (cs : List Char) : Prop :=
  (∀ c ∈ cs.head?, c = '?' ∨ c = '#') ∧ ∀ c ∈ cs, IsVisible c

theorem isTrailer_queryAndFragment (special : Bool) (cs : List Char) :
    IsTrailer (queryAndFragment special cs) := by
  have hquery : ' ' ∈ querySet special := by cases special <;> decide
  have hfragment : ' ' ∈ fragmentSet := by decide
  -- Each part is nothing, or a mark and what is encoded after it.
  have hpart {mark : Char} (hmark : mark = '?' ∨ mark = '#') {listed : List Char}
      (hspace : ' ' ∈ listed) (cs : List Char) : IsTrailer (mark :: encodeAll listed cs) := by
    refine ⟨fun c hc => ?_, fun c hc => ?_⟩
    · obtain rfl := Option.some.inj hc
      exact hmark
    · rcases List.mem_cons.mp hc with rfl | hc
      · rcases hmark with rfl | rfl <;> decide
      · exact isVisible_of_mem_encodeAll hspace hc
  have happend {cs cs' : List Char} (h : IsTrailer cs) (h' : IsTrailer cs') :
      IsTrailer (cs ++ cs') := by
    cases cs with
    | nil => exact h'
    | cons c cs =>
      refine ⟨h.1, fun d hd => ?_⟩
      rcases List.mem_append.mp hd with hd | hd
      · exact h.2 d hd
      · exact h'.2 d hd
  have hnil : IsTrailer [] := ⟨by simp, by simp⟩
  refine happend ?_ ?_
  · split
    · exact hpart (.inl rfl) hquery _
    · exact hnil
  · split
    · exact hpart (.inr rfl) hfragment _
    · exact hnil

/-! ### URLs -/

/-- A letter, and characters that a scheme may hold. -/
def IsScheme (cs : List Char) : Prop :=
  ∃ c more, cs = c :: more ∧ c.isAlpha ∧ ∀ d ∈ more, UriReference.isSchemeChar d

theorem isScheme_of_scheme? {scheme rest : List Char} (h : scheme? cs = some (scheme, rest)) :
    IsScheme scheme := by
  -- Neither property depends on the case of a letter.
  have hlower {f : Char → Bool} (h : ∀ i < 26, f (Char.ofNat (97 + i)) = f (Char.ofNat (65 + i)))
      (c : Char) : f c.toLower = f c :=
    CodePoint.apply_asciiLower (fun c => c.scalar?.any f) h (.scalar c)
  have halpha (c : Char) : c.toLower.isAlpha = c.isAlpha := hlower (by decide) c
  have hmark (c : Char) : UriReference.isSchemeChar c.toLower = UriReference.isSchemeChar c :=
    hlower (by decide) c
  unfold scheme? at h
  split at h
  · rename_i c more after hscheme _
    split at h
    · rename_i hc
      cases h
      refine ⟨c.toLower, more.map Char.toLower, rfl, (halpha c).trans hc, fun d hd => ?_⟩
      obtain ⟨e, he, rfl⟩ := List.mem_map.mp hd
      rw [hmark]
      exact List.mem_takeWhile_imp (hscheme ▸ List.mem_cons_of_mem c he)
    · cases h
  · cases h

/-- The parts of a URL can be told apart. -/
structure Parts.Fits (p : Parts) : Prop where
  scheme : IsScheme p.scheme
  place : PlaceFits p.authority p.path
  trailer : IsTrailer p.trailer

theorem fits_of_parts? {s : String} {p : Parts} (h : parts? s = some p) : p.Fits := by
  unfold parts? at h
  simp only [Option.bind_eq_bind, Option.bind_eq_some_iff, Prod.exists] at h
  obtain ⟨scheme, rest, hscheme, authority, path, hplace, h⟩ := h
  cases h
  exact ⟨isScheme_of_scheme? hscheme, placeFits_of_body? hplace, isTrailer_queryAndFragment _ _⟩

/-- A URL is written from parts that can be told apart. -/
theorem exists_parts (u : Url) :
    ∃ p : Parts, p.Fits ∧ Text.ofString u.href = Text.ofChars p.write := by
  obtain ⟨s, hs⟩ := u.normal
  obtain ⟨p, hp, hhref⟩ := Option.map_eq_some_iff.mp hs
  refine ⟨p, fits_of_parts? hp, ?_⟩
  rw [← hhref, Text.ofString, String.toList_ofList, Text.ofChars]

end Url

end CloudEnvelope
