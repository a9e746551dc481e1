import CloudEnvelope.Proofs.Format.RegistryRun
import CloudEnvelope.Proofs.Text.Lowercase
import CloudEnvelope.Proofs.Text.Split

/-!
# Media types that are written in another way

A media type may be written in capitals or small letters, with blanks around it and with parameters
behind it: `MediaType.Variant`.  These are all normalised to the same text
(`MediaType.Variant.normalize_eq`), which is normalised itself (`MediaType.normalize_normalize`), so
a registry answers requests for them alike (`FormatRegistry.requests_normalized`).
-/

namespace CloudEnvelope

namespace MediaType

variable {m m' : Text}

theorem normalize_eq (m : Text) :
    normalize m = (Text.trim (m.takeWhile (· ≠ .scalar ';'))).lowercase := by
  rw [normalize, Text.splitFirst_fst]

theorem semicolon_notMem_normalize (m : Text) : .scalar ';' ∉ normalize m := by
  rw [normalize_eq]
  intro hmem
  -- The part before the parameters holds no semicolon, and lower case adds none.
  have hbase := Text.mem_of_mem_trim (Text.mem_of_mem_lowercase hmem)
  simpa using List.mem_takeWhile_imp hbase

/-- What is normalised stays as it is. -/
theorem normalize_normalize (m : Text) : normalize (normalize m) = normalize m := by
  have htrimmed : (normalize m).Trimmed := (Text.trimmed_trim _).lowercase
  rw [normalize, Text.splitFirst_of_notMem (semicolon_notMem_normalize m), htrimmed.trim_eq,
    normalize, Text.lowercase_lowercase]

/-! ### Variants -/

/-- The second text is the first with other ASCII letters in capitals, with blanks around it or with
parameters behind it, any of these any number of times. -/
inductive Variant : Text → Text → Prop
  | recased {m m' : Text} (h : m'.map CodePoint.asciiLower = m.map CodePoint.asciiLower) :
      Variant m m'
  | padded (before m after : Text) (hbefore : ∀ c ∈ before, c.isBlank)
      (hafter : ∀ c ∈ after, c.isBlank) : Variant m (before ++ m ++ after)
  | parameterized (m parameters : Text) : Variant m (m ++ .scalar ';' :: parameters)
  | trans {m m' m'' : Text} (h : Variant m m') (h' : Variant m' m'') : Variant m m''

theorem normalize_map_asciiLower (m : Text) :
    normalize (m.map CodePoint.asciiLower) = normalize m := by
  have hbase : (m.map CodePoint.asciiLower).takeWhile (· ≠ .scalar ';')
      = (m.takeWhile (· ≠ .scalar ';')).map CodePoint.asciiLower := by
    rw [List.takeWhile_map]
    congr 2
    funext c
    have hmark : c.asciiLower = .scalar ';' ↔ c = .scalar ';' :=
      CodePoint.asciiLower_eq_iff (by decide)
    simp [hmark]
  rw [normalize_eq, normalize_eq, hbase, Text.trim_map_asciiLower, Text.lowercase_map_asciiLower]

theorem normalize_padded {before after : Text} (hbefore : ∀ c ∈ before, c.isBlank)
    (hafter : ∀ c ∈ after, c.isBlank) : normalize (before ++ m ++ after) = normalize m := by
  have hmark : ∀ c ∈ before, decide (c ≠ .scalar ';') := by
    intro c hc
    rw [decide_eq_true_eq]
    rintro rfl
    exact absurd (hbefore _ hc) (by decide)
  -- The blanks behind a type with parameters are cut off with these.
  obtain ⟨rest, hrest, hbase⟩ : ∃ rest : Text, (∀ c ∈ rest, c.isBlank) ∧
      (m ++ after).takeWhile (· ≠ .scalar ';') = m.takeWhile (· ≠ .scalar ';') ++ rest := by
    rw [List.takeWhile_append]
    split
    · rename_i hwhole
      rw [(List.takeWhile_prefix _).eq_of_length hwhole]
      exact ⟨_, fun c hc => hafter c ((List.takeWhile_prefix _).subset hc), rfl⟩
    · exact ⟨[], List.forall_mem_nil _, (List.append_nil _).symm⟩
  rw [normalize_eq, normalize_eq, List.append_assoc, List.takeWhile_append_of_pos hmark, hbase,
    ← List.append_assoc, Text.trim_append hbefore hrest]

theorem normalize_parameterized (m parameters : Text) :
    normalize (m ++ .scalar ';' :: parameters) = normalize m := by
  have hbase : (m ++ .scalar ';' :: parameters).takeWhile (· ≠ .scalar ';')
      = m.takeWhile (· ≠ .scalar ';') := by
    rw [List.takeWhile_append]
    split
    · rename_i hwhole
      rw [List.takeWhile_cons_of_neg (by simp), List.append_nil]
      exact ((List.takeWhile_prefix _).eq_of_length hwhole).symm
    · rfl
  rw [normalize_eq, normalize_eq, hbase]

/-- Variants are normalised to the same text. -/
theorem Variant.normalize_eq (h : Variant m m') : normalize m' = normalize m := by
  induction h with
  | @recased m m' h => rw [← normalize_map_asciiLower m', h, normalize_map_asciiLower]
  | padded before m after hbefore hafter => exact normalize_padded hbefore hafter
  | parameterized m parameters => exact normalize_parameterized m parameters
  | trans _ _ ih ih' => exact ih'.trans ih

end MediaType

namespace FormatRegistry

open EventFormat

/-- A request and a variant of it are served by the same format, or neither is served. -/
theorem requests_normalized :
    (∀ m, MediaType.normalize (MediaType.normalize m) = MediaType.normalize m) ∧
      ∀ (r : FormatRegistry) (m m' : Text), MediaType.Variant m m' →
        ((∃ f, r.get m = .ok f ∧ r.get m' = .ok f) ∨
          r.get m = .error (.unsupportedFormat m r.mediaTypes) ∧
            r.get m' = .error (.unsupportedFormat m' r.mediaTypes)) ∧
          r.has m' = r.has m := by
  refine ⟨MediaType.normalize_normalize, fun r m m' hvariant => ⟨?_, ?_⟩⟩
  · rw [FormatRegistry.get, FormatRegistry.get, hvariant.normalize_eq]
    rcases r.find? (MediaType.normalize m) with _ | f
    · exact .inr ⟨rfl, rfl⟩
    · exact .inl ⟨f, rfl, rfl⟩
  · rw [has, has, hvariant.normalize_eq]

theorem requests_normalized_loud :
    (after [.component json]).get "application/json" = .ok json ∧
      MediaType.Variant "application/json" " Application/JSON ; charset=utf-8" ∧
      (after [.component json]).get " Application/JSON ; charset=utf-8" = .ok json := by
  have hserved : (after [.component json]).get "application/json" = .ok json := rfl
  have hvariant : MediaType.Variant "application/json" " Application/JSON ; charset=utf-8" := by
    have hrecased : MediaType.Variant "application/json" "Application/JSON" :=
      .recased (by decide)
    exact (hrecased.trans (.padded " " _ " " (by decide) (by decide))).trans
      (.parameterized _ " charset=utf-8")
  obtain ⟨⟨f, hf, hf'⟩ | ⟨hnone, -⟩, -⟩ :=
    requests_normalized.2 (after [.component json]) _ _ hvariant
  · refine ⟨hserved, hvariant, ?_⟩
    rw [hf', ← hf, hserved]
  · cases hserved.symm.trans hnone

end FormatRegistry

end CloudEnvelope
