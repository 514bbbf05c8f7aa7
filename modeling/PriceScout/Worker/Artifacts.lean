import PriceScout.Store.Executions
import PriceScout.Worker.Outcomes

/-!
The files of a job's evidence lie where the control plane expects them, so that
only their sizes can make it refuse them.
-/

namespace PriceScout.Worker.Artifacts

open PriceScout.Domain (UUID Execution ResultArtifact)
open PriceScout.Library.GoStrings
open PriceScout.Library.JsStrings (isWordChar utf16Units slice_of_le)
open PriceScout.Store.Executions
open PriceScout.Worker.Contracts
open PriceScout.Worker.Handler
open PriceScout.Worker.Outcomes

variable {id : UUID}

theorem safeIdOf_uuid (h : id.value < 2 ^ 128) : safeIdOf id.string = id.string := by
  have hkept : (id.string.toList.flatMap fun c =>
      if isWordChar c || c = '-' then [c] else List.replicate (utf16Units c) '_') =
        id.string.toList.flatMap fun c => [c] :=
    List.flatMap_congr fun c hc => if_pos <| UUID.forall_mem_string
      (p := fun c => (isWordChar c || c = '-') = true) (by decide) (by decide) id c hc
  have hunits : id.string.toList.map utf16Units = id.string.toList.map fun _ => 1 :=
    List.map_congr_left <| UUID.forall_mem_string (p := fun c => utf16Units c = 1)
      (by decide) (by decide) id
  rw [safeIdOf, hkept, List.flatMap_singleton', String.ofList_toList]
  refine slice_of_le ?_
  rw [Library.JsStrings.length, hunits]
  simp [UUID.length_string h]

/-- Where the control plane expects the file of an artifact. -/
def storageKey (id : UUID) (kind : ArtifactKind) : String :=
  id.string ++ fileName kind

theorem forall_mem_storageKey {p : Char → Prop} (hdash : p '-')
    (hdigit : ∀ d < 16, p (Nat.digitChar d)) (id : UUID) {kind : ArtifactKind}
    (hfile : ∀ c ∈ (fileName kind).toList, p c) : ∀ c ∈ (storageKey id kind).toList, p c := by
  intro c hc
  rw [storageKey, String.toList_append, List.mem_append] at hc
  rcases hc with hc | hc
  · exact UUID.forall_mem_string hdash hdigit id c hc
  · exact hfile c hc

theorem replaceChar_storageKey (id : UUID) (kind : ArtifactKind) :
    replaceChar '\\' '/' (storageKey id kind) = storageKey id kind := by
  have hnone : ∀ c ∈ (storageKey id kind).toList, c ≠ '\\' :=
    forall_mem_storageKey (by decide) (by decide) id (by cases kind <;> simp [fileName])
  exact replaceChar_of_not_mem fun hmem => hnone _ hmem rfl

theorem trimSpace_storageKey (id : UUID) (kind : ArtifactKind) :
    trimSpace (storageKey id kind) = storageKey id kind :=
  trimSpace_of_forall <| forall_mem_storageKey (p := fun c => isSpace c = false)
    (by decide) (by decide) id (by cases kind <;> simp [fileName] <;> decide)

/-- A key starts with a digit of the execution's id. -/
theorem exists_storageKey_eq (id : UUID) (kind : ArtifactKind) :
    ∃ c rest, (storageKey id kind).toList = c :: rest ∧ c ≠ '.' ∧ c ≠ '/' := by
  cases hchars : id.string.toList with
  | nil =>
      have hpos := length_uuid_pos id
      simp [Library.JsStrings.length, hchars] at hpos
  | cons c rest =>
      have hne : c ≠ '.' ∧ c ≠ '/' :=
        UUID.forall_mem_string (p := fun c => c ≠ '.' ∧ c ≠ '/') (by decide) (by decide) id c
          (hchars ▸ List.mem_cons_self ..)
      exact ⟨c, rest ++ (fileName kind).toList, by simp [storageKey, hchars], hne⟩

theorem contains_storageKey (id : UUID) (kind : ArtifactKind) :
    contains (storageKey id kind) "../" = false := by
  have hnone : ∀ c ∈ id.string.toList, c ≠ '.' :=
    UUID.forall_mem_string (by decide) (by decide) id
  rw [storageKey, contains_append_of_not_mem rfl fun hmem => hnone _ hmem rfl]
  cases kind <;> decide

theorem hasPrefix_storageKey (id : UUID) (kind : ArtifactKind) :
    hasPrefix (storageKey id kind) (id.string ++ "/") = true := by
  simp only [hasPrefix, storageKey, String.toList_append, List.isPrefixOf_iff_prefix,
    List.prefix_append_right_inj]
  cases kind <;> decide

/-- The file of an artifact is taken unless it is too large. -/
theorem validArtifact_iff {e : Execution} {kind : ArtifactKind} {artifact : ResultArtifact}
    (hkind : artifact.kind = kind.string) (hkey : artifact.storageKey = storageKey e.id kind)
    (htype : artifact.contentType = kind.contentType) (hsize : 0 ≤ artifact.sizeBytes) :
    validArtifact e artifact = true ↔ artifact.sizeBytes ≤ 50 * 2 ^ 20 := by
  obtain ⟨c, rest, hchars, hdot, hslash⟩ := exists_storageKey_eq e.id kind
  have hfront : trimPrefix (storageKey e.id kind) "./" = storageKey e.id kind := by
    simp [trimPrefix, hasPrefix, hchars, List.isPrefixOf, hdot.symm]
  have hempty : storageKey e.id kind ≠ "" := by
    intro hempty
    simp [hempty] at hchars
  have hroot : hasPrefix (storageKey e.id kind) "/" = false := by
    simp [hasPrefix, hchars, List.isPrefixOf, hslash.symm]
  have hplace : kind.contentType = "image/png" ∨ kind.contentType = "text/plain" ∨
      kind.contentType = "application/json" := by
    cases kind <;> decide
  have hnamed : trimSpace kind.string ≠ "" := by
    cases kind <;> decide
  simp only [validArtifact, hkey, hkind, htype, replaceChar_storageKey, trimSpace_storageKey,
      hfront,
    hempty, hroot, contains_storageKey, hasPrefix_storageKey, hplace, if_true]
  simp [hnamed, not_lt.mpr hsize]

end PriceScout.Worker.Artifacts
