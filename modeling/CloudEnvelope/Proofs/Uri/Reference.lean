import CloudEnvelope.Proofs.Text.Scalar
import CloudEnvelope.Proofs.Text.Split
import CloudEnvelope.Proofs.Uri.Url

/-!
# URLs as URI references

A URL is written from its parts, and as a URI reference it is told apart into the same authority
(`Url.authority?_write`), which fits (`Url.authorityFits_write`).  So nothing but a blank keeps what
is written from being a reference (`Url.fault?_write_iff`), and a blank is a space in a bare path
(`Url.Parts.Fits.mem_write`).
-/

namespace CloudEnvelope

namespace Url

variable {cs : List Char} {c : Char}

/-! ### Written authorities -/

theorem HostFits.mem_write {host : Host} (h : HostFits host) (hc : c ∈ host.write) :
    IsInner c ∨ c = ':' ∨ c = '[' ∨ c = ']' := by
  cases host with
  | name cs => exact .inl (h cs rfl c hc)
  | literal address =>
    simp only [Host.write, List.mem_append, List.mem_cons, List.not_mem_nil, or_false] at hc
    rcases hc with (hopen | hwritten) | hclose
    · exact .inr (.inr (.inl hopen))
    · rcases Version6.mem_write hwritten with hcolon | hhex
      · exact .inr (.inl hcolon)
      · exact .inl (isInner_of_isHexDigit hhex)
    · exact .inr (.inr (.inr hclose))

/-- The characters of an authority show, and none of them ends it. -/
theorem Authority.Fits.mem_write {a : Authority} (h : a.Fits) (hc : c ∈ a.write) :
    IsVisible c ∧ c ≠ '/' ∧ c ≠ '?' ∧ c ≠ '#' := by
  have hinner {d : Char} (hd : IsInner d) : IsVisible d ∧ d ≠ '/' ∧ d ≠ '?' ∧ d ≠ '#' := by
    refine ⟨hd.1, ?_, ?_, ?_⟩ <;> rintro rfl <;> exact absurd hd (by decide)
  have hmarks : ∀ d ∈ [':', '@', '[', ']'], IsVisible d ∧ d ≠ '/' ∧ d ≠ '?' ∧ d ≠ '#' := by
    simp [IsVisible]
  simp only [Authority.write, List.mem_append] at hc
  rcases hc with (hc | hc) | hc
  · rcases h.user with hnil | ⟨shown, huser, hshown⟩
    · rw [hnil] at hc
      cases hc
    · rw [huser, List.mem_append, List.mem_singleton] at hc
      rcases hc with hc | rfl
      · exact hinner (hshown c hc)
      · exact hmarks _ (by simp)
  · rcases h.host.mem_write hc with hc | hc
    · exact hinner hc
    · refine hmarks c ?_
      rcases hc with rfl | rfl | rfl <;> simp
  · rcases h.portNumber with hnil | ⟨digits, hport, hdigits⟩
    · rw [hnil] at hc
      cases hc
    · rw [hport, List.mem_cons] at hc
      rcases hc with rfl | hc
      · exact hmarks _ (by simp)
      · exact hinner (hdigits c hc)

theorem IsUserInfo.notMem (h : IsUserInfo cs) {mark : Char} (hmark : mark ∈ delimiters)
    (hat : mark ≠ '@') : mark ∉ cs := by
  rcases h with rfl | ⟨shown, rfl, hshown⟩
  · exact List.not_mem_nil
  · rw [List.mem_append, List.mem_singleton, not_or]
    exact ⟨fun hmem => (hshown mark hmem).2 hmark, hat⟩

theorem IsPortNumber.notMem (h : IsPortNumber cs) {mark : Char} (hmark : mark ∈ delimiters) :
    mark ∉ cs := by
  have hcolon : mark ≠ ':' := by
    rintro rfl
    exact absurd hmark (by decide)
  rcases h with rfl | ⟨digits, rfl, hdigits⟩
  · exact List.not_mem_nil
  · rw [List.mem_cons, not_or]
    exact ⟨hcolon, fun hmem => (hdigits mark hmem).2 hmark⟩

open UriReference

/-- Host and number are what follows the last at sign, or all of the authority. -/
theorem Authority.Fits.afterLast?_write {a : Authority} (h : a.Fits)
    (hat : '@' ∉ a.host.write) :
    ((Text.ofChars a.write).afterLast? '@').getD (Text.ofChars a.write)
      = Text.ofChars (a.host.write ++ a.portNumber) := by
  have hplace : CodePoint.scalar '@' ∉ Text.ofChars (a.host.write ++ a.portNumber) := by
    rw [Text.mem_ofChars_iff, List.mem_append, not_or]
    exact ⟨hat, h.portNumber.notMem (by decide)⟩
  rw [Authority.write, List.append_assoc]
  rcases h.user with hnil | ⟨shown, huser, -⟩
  · rw [hnil, List.nil_append]
    cases hafter : (Text.ofChars (a.host.write ++ a.portNumber)).afterLast? '@' with
    | none => rfl
    | some after =>
      obtain ⟨before, hsplit, -⟩ := Text.afterLast?_eq_some_iff.mp hafter
      rw [hsplit] at hplace
      exact absurd (List.mem_append_right _ List.mem_cons_self) hplace
  · have hafter : (Text.ofChars (a.user ++ (a.host.write ++ a.portNumber))).afterLast? '@'
        = some (Text.ofChars (a.host.write ++ a.portNumber)) := by
      refine Text.afterLast?_eq_some_iff.mpr ⟨Text.ofChars shown, ?_, hplace⟩
      rw [huser, List.append_assoc, Text.ofChars_append]
      rfl
    rw [hafter]
    rfl

theorem isBracketed_write {a : Authority} (h : a.Fits) {address : Version6}
    (hhost : a.host = .literal address) : isBracketed (Text.ofChars a.write) := by
  have hat : '@' ∉ a.host.write := by
    rw [hhost, Host.write, List.mem_append, List.mem_cons, not_or, not_or]
    exact ⟨⟨by decide, address.notMem_write (by decide) (by decide)⟩, by decide⟩
  have hplace : Text.ofChars (a.host.write ++ a.portNumber) = .scalar '[' ::
      (Text.ofChars address.write ++ .scalar ']' :: Text.ofChars a.portNumber) := by
    rw [hhost, Host.write]
    simp [Text.ofChars]
  have hclose : CodePoint.scalar ']' ∉ Text.ofChars address.write := by
    rw [Text.mem_ofChars_iff]
    exact address.notMem_write (by decide) (by decide)
  have hliteral : Address.isLiteral (Text.ofChars address.write) := address.isLiteral_write
  have hopened : Text.splitFirst '[' (Text.ofChars (a.host.write ++ a.portNumber))
      = ([], some (Text.ofChars address.write ++ .scalar ']' :: Text.ofChars a.portNumber)) := by
    rw [hplace]
    exact Text.splitFirst_append List.not_mem_nil _
  simp only [isBracketed, h.afterLast?_write hat, hopened, Text.splitFirst_append hclose, hliteral]
  rcases h.portNumber with hnil | ⟨digits, hport, -⟩
  · rw [hnil]
    rfl
  · rw [hport]
    rfl

theorem bracketsFit_write {a : Authority} (h : a.Fits) : bracketsFit (Text.ofChars a.write) := by
  cases hhost : a.host with
  | name cs =>
    have hnone {mark : Char} (hmark : mark ∈ delimiters) (hat : mark ≠ '@') :
        (Text.ofChars a.write).contains (.scalar mark) = false := by
      rw [← Bool.not_eq_true, List.contains_iff_mem, Text.mem_ofChars_iff, Authority.write, hhost,
        List.mem_append, List.mem_append, not_or, not_or]
      exact ⟨⟨h.user.notMem hmark hat, fun hmem => (h.host cs hhost mark hmem).2 hmark⟩,
        h.portNumber.notMem hmark⟩
    rw [bracketsFit, hnone (by decide) (by decide), hnone (by decide) (by decide)]
  | literal address =>
    have hmem {mark : Char} (hmark : mark ∈ a.host.write) :
        (Text.ofChars a.write).contains (.scalar mark) = true := by
      rw [List.contains_iff_mem, Text.mem_ofChars_iff, Authority.write, List.mem_append,
        List.mem_append]
      exact .inl (.inr hmark)
    rw [bracketsFit, hmem (by simp [hhost, Host.write]), hmem (by simp [hhost, Host.write])]
    exact isBracketed_write h hhost

theorem authorityFits_write {a : Authority} (h : a.Fits) :
    authorityFits (Text.ofChars a.write) := by
  rw [authorityFits, Bool.and_eq_true, List.all_eq_true]
  refine ⟨bracketsFit_write h, fun c hc => ?_⟩
  obtain ⟨d, hd, rfl⟩ := List.mem_map.mp hc
  have hascii := (h.mem_write hd).1.2
  have hlike : ∀ n ∈ delimiterLike, 0x7E < n := by decide
  rw [Bool.not_eq_true', ← Bool.not_eq_true, List.contains_iff_mem]
  intro hmem
  exact absurd (hlike _ hmem) (Nat.not_lt.mpr hascii)

/-! ### Written URLs -/

theorem afterScheme_write {scheme : List Char} (h : IsScheme scheme) (rest : List Char) :
    afterScheme (Text.ofChars (scheme ++ ':' :: rest)) = Text.ofChars rest := by
  obtain ⟨c, more, rfl, hc, hmore⟩ := h
  have hcolon : CodePoint.scalar ':' ∉ Text.ofChars (c :: more) := by
    rw [Text.mem_ofChars_iff, List.mem_cons, not_or]
    refine ⟨?_, fun hmem => ?_⟩
    · rintro rfl
      cases hc
    · cases hmore _ hmem
  have hscalars : (Text.ofChars (c :: more)).mapM CodePoint.scalar? = some (c :: more) :=
    Text.scalars?_ofChars _
  have hsplit : Text.splitFirst ':' (Text.ofChars (c :: more ++ ':' :: rest))
      = (Text.ofChars (c :: more), some (Text.ofChars rest)) := by
    rw [Text.ofChars_append]
    exact Text.splitFirst_append hcolon _
  simp only [afterScheme, hsplit, hscalars]
  rw [if_pos]
  rw [hc, Bool.true_and, List.all_eq_true]
  exact hmore

/-- A path and what follows it start with a mark that ends an authority. -/
theorem endsAuthority_head? {p : Parts} (h : p.Fits) (hrooted : p.path.IsRooted) :
    ∀ c ∈ (p.path.write ++ p.trailer).head?, endsAuthority (.scalar c) := by
  obtain ⟨segments, hpath, -⟩ := hrooted
  rw [hpath]
  cases segments with
  | nil =>
    intro c hc
    rcases h.trailer.1 c hc with rfl | rfl <;> rfl
  | cons segment segments =>
    rintro c ⟨⟩
    rfl

/-- Without an authority, two slashes do not follow the scheme. -/
theorem place_ne {p : Parts} (h : p.Fits) (hnone : p.authority = none) (rest : List Char) :
    p.place ++ p.trailer ≠ '/' :: '/' :: rest := by
  have htrailer {cs : List Char} : p.trailer ≠ '/' :: cs := fun heq => by
    rcases h.trailer.1 '/' (by rw [heq]; rfl) with hmark | hmark <;> cases hmark
  rw [Parts.place, hnone]
  simp only
  split
  · simp
  · rename_i cs hcs
    generalize p.path.write = shown at hcs
    intro heq
    match shown, heq with
    | [], heq => exact htrailer heq
    | [_], heq => exact htrailer (List.cons.inj heq).2
    | c :: d :: more, heq =>
      obtain ⟨rfl, hmore⟩ := List.cons.inj heq
      obtain ⟨rfl, -⟩ := List.cons.inj hmore
      exact hcs more rfl

/-- An authority ends where a mark that ends it follows, or nothing. -/
theorem takeWhile_write {a : Authority} (h : a.Fits) {rest : List Char}
    (hrest : ∀ c ∈ rest.head?, endsAuthority (.scalar c)) :
    (Text.ofChars a.write ++ Text.ofChars rest).takeWhile (!endsAuthority ·)
      = Text.ofChars a.write := by
  rw [List.takeWhile_append_of_pos]
  · cases rest with
    | nil => exact List.append_nil _
    | cons c rest =>
      have hnone : (Text.ofChars (c :: rest)).takeWhile (!endsAuthority ·) = [] :=
        List.takeWhile_cons_of_neg (by simp [hrest c rfl])
      rw [hnone, List.append_nil]
  · intro c hc
    obtain ⟨d, hd, rfl⟩ := List.mem_map.mp hc
    obtain ⟨-, hslash, hquery, hfragment⟩ := h.mem_write hd
    simp [endsAuthority, hslash, hquery, hfragment]

theorem authority?_write {p : Parts} (h : p.Fits) :
    UriReference.authority? (Text.ofChars p.write) = p.authority.map (Text.ofChars ·.write) := by
  have hcontrol : (Text.ofChars p.write).dropWhile CodePoint.isControlOrSpace
      = Text.ofChars p.write := by
    obtain ⟨c, more, hscheme, hc, -⟩ := h.scheme
    have hgt : 0x20 < c.toNat := Nat.lt_of_lt_of_le (by decide) (bounds_of_isAlpha hc).1
    rw [Parts.write, hscheme]
    refine List.dropWhile_cons_of_neg ?_
    rw [CodePoint.isControlOrSpace, decide_eq_true_eq]
    exact Nat.not_le.mpr hgt
  rw [UriReference.authority?, hcontrol, Parts.write, afterScheme_write h.scheme]
  cases ha : p.authority with
  | some a =>
    have hrooted := h.place.2.resolve_right fun hbare => by
      rw [ha] at hbare
      cases hbare.1
    have hplace : Text.ofChars (p.place ++ p.trailer) = .scalar '/' :: .scalar '/' ::
        (Text.ofChars a.write ++ Text.ofChars (p.path.write ++ p.trailer)) := by
      rw [Parts.place, ha]
      simp [Text.ofChars]
    rw [hplace]
    exact congrArg some (takeWhile_write (h.place.1 a ha) (endsAuthority_head? h hrooted))
  | none =>
    split
    · rename_i rest heq
      obtain ⟨c, more, hmore, hc, heq⟩ := List.map_eq_cons_iff.mp heq
      obtain ⟨d, more', hmore', hd, -⟩ := List.map_eq_cons_iff.mp heq
      rw [hmore', CodePoint.scalar.inj hc, CodePoint.scalar.inj hd] at hmore
      exact absurd hmore (place_ne h ha _)
    · rfl

/-- A scheme, and a path that does not start with a slash after it. -/
def IsBare (t : Text) : Prop :=
  ∃ scheme rest, t = Text.ofChars (scheme ++ ':' :: rest) ∧ IsScheme scheme ∧
    rest.head? ≠ some '/'

theorem IsScheme.isVisible {scheme : List Char} (h : IsScheme scheme) (hc : c ∈ scheme) :
    IsVisible c := by
  obtain ⟨first, more, rfl, hfirst, hmore⟩ := h
  refine isVisible_of_isSchemeChar ?_
  rcases List.mem_cons.mp hc with rfl | hc
  · simp [UriReference.isSchemeChar, Char.isAlphanum, hfirst]
  · exact hmore c hc

/-- Slashes, points, and what authority and path are written in. -/
theorem mem_place {p : Parts} (hc : c ∈ p.place) :
    c = '/' ∨ c = '.' ∨ (∃ a ∈ p.authority, c ∈ a.write) ∨ c ∈ p.path.write := by
  unfold Parts.place at hc
  split at hc
  · rename_i a ha
    simp only [List.mem_cons, List.mem_append] at hc
    rcases hc with hc | hc | hc | hc
    · exact .inl hc
    · exact .inl hc
    · exact .inr (.inr (.inl ⟨a, ha, hc⟩))
    · exact .inr (.inr (.inr hc))
  · split at hc
    · rename_i rest hpath
      rw [hpath]
      simp only [List.mem_cons] at hc ⊢
      tauto
    · exact .inr (.inr (.inr hc))

/-- A bare path stands for itself. -/
theorem isBare_write {p : Parts} (h : p.Fits) (hnone : p.authority = none) (hpath : p.path.IsBare) :
    IsBare (Text.ofChars p.write) := by
  obtain ⟨cs, hcs, hhead, -⟩ := hpath
  refine ⟨p.scheme, p.place ++ p.trailer, rfl, h.scheme, ?_⟩
  have hplace : p.place = cs := by
    rw [Parts.place, hnone, hcs]
    simp only [Path.write]
    split
    · exact absurd rfl hhead
    · rfl
  rw [hplace]
  cases cs with
  | nil =>
    intro hslash
    rcases h.trailer.1 _ hslash with hmark | hmark <;> cases hmark
  | cons c cs => exact hhead

/-- All that is written shows, or it is a space in a bare path. -/
theorem Parts.Fits.mem_write {p : Parts} (h : p.Fits) (hc : c ∈ p.write) :
    IsVisible c ∨ c = ' ' ∧ IsBare (Text.ofChars p.write) := by
  simp only [Parts.write, List.mem_append, List.mem_cons] at hc
  rcases hc with hc | rfl | hc | hc
  · exact .inl (h.scheme.isVisible hc)
  · exact .inl (by decide)
  · rcases mem_place hc with rfl | rfl | ⟨a, ha, hc⟩ | hc
    · exact .inl (by decide)
    · exact .inl (by decide)
    · exact .inl ((h.place.1 a ha).mem_write hc).1
    · rcases h.place.2 with ⟨-, -, hshown⟩ | ⟨hnone, hbare⟩
      · exact .inl (hshown c hc)
      · have hwritten := isBare_write h hnone hbare
        obtain ⟨cs, hcs, -, hshown⟩ := hbare
        rw [hcs] at hc
        rcases hshown c hc with rfl | hvisible
        · exact .inr ⟨rfl, hwritten⟩
        · exact .inl hvisible
  · exact .inl (h.trailer.2 c hc)

theorem isBlank_of_isVisible (h : IsVisible c) : (CodePoint.scalar c).isBlank = false :=
  of_ascii (motive := fun c => IsVisible c → (CodePoint.scalar c).isBlank = false)
    (by decide +kernel) (Nat.lt_of_le_of_lt h.2 (by decide)) h

/-- What is written is a URI reference unless it holds a blank. -/
theorem fault?_write_iff {p : Parts} (h : p.Fits) : fault? (Text.ofChars p.write) = none ↔
    ∀ c ∈ Text.ofChars p.write, c.isBlank = false := by
  have hempty : (Text.ofChars p.write).isEmpty = false := by
    simp [Text.ofChars, Parts.write]
  have hauthority : (UriReference.authority? (Text.ofChars p.write)).all authorityFits := by
    rw [authority?_write h]
    cases ha : p.authority with
    | none => rfl
    | some a => exact authorityFits_write (h.place.1 a ha)
  rw [fault?, hempty, Bool.false_or, if_pos hauthority]
  split
  · rename_i hblank
    obtain ⟨c, hc, hblank⟩ := List.any_eq_true.mp hblank
    simp only [reduceCtorEq, false_iff, not_forall]
    exact ⟨c, hc, by simp [hblank]⟩
  · rename_i hblank
    simpa using hblank

end Url

end CloudEnvelope
