import PriceScout.Httpapi.ArtifactKeys
import PriceScout.Httpapi.UsableConditions
import PriceScout.Store.Inversions

/-!
The files that the control plane serves as artifacts.
-/

namespace PriceScout.Httpapi.ArtifactFiles

open PriceScout.Domain
open PriceScout.Httpapi.ArtifactKeys
open PriceScout.Httpapi.Handlers
open PriceScout.Library.FilePaths
open PriceScout.Library.GoStrings
open PriceScout.Library.Runs
open PriceScout.Library.Tables
open PriceScout.Store.Executions
open PriceScout.Store.Inversions
open PriceScout.Store.Recovery
open PriceScout.Store.Schema

/-- The files of a host without symbolic links. -/
structure Files where
  evalSymlinks : String → Option String
  plain : ∀ {path resolved : String}, evalSymlinks path = some resolved → resolved = clean path

/-- A host where every file exists. -/
def everything : Files where
  evalSymlinks path := some (clean path)
  plain h := (Option.some.inj h).symm

structure ServedFile where
  contentType : String
  cacheControl : String
  path : String

/-- A clean key that leads out of the root. -/
def leadsOut (cleanKey : String) : Bool :=
  isAbs cleanKey || cleanKey = ".." || hasPrefix cleanKey "../"

def artifactNotFound : Response :=
  writeError 404 "artifact not found"

def getArtifact (s : Server) (artifactRoot : String) (workingDirectory : Option String)
    (files : Files) (artifactID : String) (db : Database) : Except Response ServedFile := do
  let id ← pathUUID s artifactID "artifactID"
  let artifact ← (Store.Executions.getArtifact id db).mapError storeError
  let cleanKey := clean artifact.storageKey
  if leadsOut cleanKey then throw artifactNotFound
  else
    match abs workingDirectory artifactRoot with
    | none => throw internalError
    | some root =>
        let path := join [root, cleanKey]
        if hasPrefix path (root ++ "/") then
          match files.evalSymlinks path with
          | none => throw artifactNotFound
          | some resolved =>
              if hasPrefix resolved (root ++ "/") then
                return { contentType := artifact.contentType,
                         cacheControl := "private, max-age=300", path := resolved }
              else throw artifactNotFound
        else throw artifactNotFound

/-- A path lies strictly inside the directory of an execution. -/
def Inside (root id path : String) : Prop :=
  ∃ below : List Element, below ≠ [] ∧ (∀ element ∈ below, IsName element) ∧
    path = root ++ "/" ++ id ++ "/" ++ String.ofList (joined below)

/-! What is served. -/

theorem leadsOut_relative {list : List Element} (h : ∀ element ∈ list, IsName element) :
    leadsOut (relative list) = false := by
  have hparent : parent ∉ list := fun hmem => (h parent hmem).ne_parent rfl
  have hdots : relative list ≠ ".." := by
    intro heq
    have hnames := names_relative h
    rw [heq] at hnames
    exact hparent (hnames ▸ List.mem_singleton_self parent)
  have hfront : hasPrefix (relative list) "../" = false := by
    rw [← Bool.not_eq_true, hasPrefix_iff]
    rintro ⟨rest, hrest⟩
    have heq : relative list = ".." ++ "/" ++ String.ofList rest := by
      rw [← String.toList_inj, ← hrest]
      simp
    have hnames := names_relative h
    rw [heq, names_append] at hnames
    exact hparent (hnames ▸ List.mem_append_left _ (List.mem_singleton_self parent))
  rw [leadsOut, not_isAbs_relative h, hfront, decide_eq_false hdots]
  rfl

theorem inside_iff {list below : List Element} {id : UUID} (h : list ≠ [])
    (hlist : ∀ element ∈ list, IsName element) (hbelow : ∀ element ∈ below, IsName element) :
    Inside (absolute list) id.string (absolute (list ++ below)) ↔
      ∃ rest, rest ≠ [] ∧ below = id.string.toList :: rest := by
  have happend : ∀ rest : List Element, rest ≠ [] →
      absolute list ++ "/" ++ id.string ++ "/" ++ String.ofList (joined rest) =
        absolute (list ++ id.string.toList :: rest) := by
    intro rest hrest
    rw [← List.singleton_append, absolute_append h (by simp), joined_append (by simp) hrest,
      ← String.toList_inj]
    simp [joined]
  have hall : ∀ rest : List Element, (∀ element ∈ rest, IsName element) →
      ∀ element ∈ list ++ rest, IsName element := fun rest hrest element helement =>
    (List.mem_append.mp helement).elim (hlist element) (hrest element)
  constructor
  · rintro ⟨rest, hne, hrest, hpath⟩
    rw [happend rest hne] at hpath
    have hcons : ∀ element ∈ id.string.toList :: rest, IsName element :=
      List.forall_mem_cons.mpr ⟨isName_string id, hrest⟩
    rw [absolute_inj (hall _ hbelow) (hall _ hcons)] at hpath
    exact ⟨rest, hne, List.append_cancel_left hpath⟩
  · rintro ⟨rest, hne, rfl⟩
    exact ⟨rest, hne, fun element helement => hbelow element (List.mem_cons_of_mem _ helement),
      (happend rest hne).symm⟩

section Serving

variable {s : Server} {artifactRoot artifactID root : String} {workingDirectory : Option String}
  {files : Files} {db : Database} {id : UUID} {artifact : Artifact} {list below : List Element}

/-- The answer for an artifact whose key has only names in its clean form. -/
theorem getArtifact_eq (hid : s.parseUUID artifactID = some id)
    (hartifact : db.artifacts.lookup id = some artifact)
    (hroot : abs workingDirectory artifactRoot = some (absolute list))
    (hlist : ∀ element ∈ list, IsName element) (hbelow : ∀ element ∈ below, IsName element)
    (hclean : clean artifact.storageKey = relative below) :
    getArtifact s artifactRoot workingDirectory files artifactID db =
      if list ≠ [] ∧ below ≠ [] then
        match files.evalSymlinks (absolute (list ++ below)) with
        | none => .error artifactNotFound
        | some _ => .ok { contentType := artifact.contentType,
                          cacheControl := "private, max-age=300", path := absolute (list ++ below) }
      else .error artifactNotFound := by
  have hpath : pathUUID s artifactID "artifactID" = .ok id := by rw [pathUUID, hid]
  have hstored : Store.Executions.getArtifact id db = .ok artifact := by
    rw [Store.Executions.getArtifact, hartifact]
    rfl
  have hall : ∀ element ∈ list ++ below, IsName element := fun element helement =>
    (List.mem_append.mp helement).elim (hlist element) (hbelow element)
  unfold getArtifact
  simp only [hpath, bind, Except.bind, hstored, Except.mapError, hclean, leadsOut_relative hbelow,
    hroot, join_absolute hlist hbelow, hasPrefix_absolute_iff hbelow]
  rw [if_neg Bool.false_ne_true]
  by_cases hne : list ≠ [] ∧ below ≠ []
  · rw [if_pos hne, if_pos hne]
    cases hresolved : files.evalSymlinks (absolute (list ++ below)) with
    | none => rfl
    | some resolved =>
        have hplain := files.plain hresolved
        rw [clean_absolute hall] at hplain
        simp only [hplain, (hasPrefix_absolute_iff hbelow).mpr hne]
        rfl
  · rw [if_neg hne, if_neg hne]
    rfl

/-- The key of an artifact is one that a result of its execution gave. -/
def Stored (e : Execution) (artifact : Artifact) : Prop :=
  artifact.executionId = e.id ∧ ∃ given : ResultArtifact,
    validArtifact e given = true ∧ artifact.storageKey = given.storageKey

theorem mem_of_insertArtifact {row : Artifact} {db' : Database}
    (h : db.insertArtifact row = .ok db') : ∀ artifact ∈ db'.artifacts,
      artifact ∈ db.artifacts ∨ artifact = row := by
  intro artifact hmem
  unfold Database.insertArtifact at h
  split at h
  · obtain rfl := Except.ok.inj h
    exact .inl hmem
  · simp only [bind_eq_ok, require_eq_ok] at h
    obtain ⟨_, -, artifacts', hinsert, h⟩ := h
    obtain rfl := pure_eq_ok.mp h
    exact (appended_of_insertRow hinsert).mem_iff.mp hmem

/-- The artifacts of a result are stored with the keys that it gave. -/
theorem stored_of_insertArtifacts {now : Timestamp} {e : Execution} {given : List ResultArtifact}
    {db' : Database} (h : insertArtifacts now e given db = .ok db') :
    ∀ artifact ∈ db'.artifacts, artifact ∈ db.artifacts ∨ Stored e artifact := by
  refine foldlM_induction
    (fun _ s => ∀ artifact ∈ s.artifacts, artifact ∈ db.artifacts ∨ Stored e artifact)
    ?_ given db db' (fun artifact hmem => .inl hmem) h
  intro first rest s s' hinv hstep artifact hmem
  split at hstep
  · rename_i hvalid
    rcases mem_of_insertArtifact hstep artifact hmem with hold | rfl
    · exact hinv artifact hold
    · exact .inr ⟨rfl, first, hvalid, rfl⟩
  · exact absurd hstep throw_ne_ok

/-- A stored key names a file strictly inside the directory of its execution
exactly where it is written so; on a host without symbolic links, and under a
root that is not the root of all paths, no other artifact is served from there. -/
theorem served_inside_iff {e : Execution} (hid : s.parseUUID artifactID = some id)
    (hartifact : db.artifacts.lookup id = some artifact) (hstored : Stored e artifact)
    (hdirectory : ∀ directory ∈ workingDirectory, isAbs directory = true)
    (hroot : abs workingDirectory artifactRoot = some root) :
    (∀ files served, getArtifact s artifactRoot workingDirectory files artifactID db = .ok served →
      Inside root e.id.string served.path) ↔
      root = "/" ∨ NamesFile e.id.string artifact.storageKey := by
  obtain ⟨list, hlist, rfl⟩ := exists_of_abs hdirectory hroot
  obtain ⟨-, given, hvalid, hkey⟩ := hstored
  obtain ⟨below, hbelow, hclean, hnames⟩ := exists_clean_eq hvalid
  rw [← hkey] at hclean hnames
  have heq files : getArtifact s artifactRoot workingDirectory files artifactID db = _ :=
    getArtifact_eq hid hartifact hroot hlist hbelow hclean
  have hrootless : absolute list = "/" ↔ list = [] :=
    absolute_inj hlist (List.forall_mem_nil _)
  rw [hrootless, ← hnames]
  constructor
  · intro hinside
    by_contra hnot
    rw [not_or, not_or] at hnot
    obtain ⟨hne, hbelowne, hnot⟩ := hnot
    have hserved := heq everything
    rw [if_pos ⟨hne, hbelowne⟩] at hserved
    exact hnot ((inside_iff hne hlist hbelow).mp (hinside everything _ hserved))
  · intro h files served hserved
    rw [heq files] at hserved
    split at hserved
    · rename_i hne
      split at hserved
      · cases hserved
      · obtain rfl := Except.ok.inj hserved
        exact (inside_iff hne.1 hlist hbelow).mpr ((h.resolve_left hne.1).resolve_left hne.2)
    · cases hserved

end Serving

/-! The screen of an execution, and its directory. -/

def execution : Execution :=
  newExecution ⟨3⟩ ⟨1⟩ .check 0

def screen (key : String) : ResultArtifact where
  kind := "screenshot"
  storageKey := key
  contentType := "image/png"
  sha256 := ""
  sizeBytes := 2048

def stored (key : String) : Artifact where
  id := ⟨5⟩
  executionId := execution.id
  kind := "screenshot"
  storageKey := key
  contentType := "image/png"
  sha256 := none
  sizeBytes := some 2048
  createdAt := 0

def withArtifact (artifact : Artifact) : Database :=
  { Database.empty with artifacts := ⟨[artifact], List.nodup_singleton _⟩ }

theorem stored_stored {key : String} (h : validArtifact execution (screen key) = true) :
    Stored execution (stored key) :=
  ⟨rfl, screen key, h, rfl⟩

theorem lookup_withArtifact (key : String) :
    (withArtifact (stored key)).artifacts.lookup ⟨5⟩ = some (stored key) := by
  rw [Table.lookup_eq_some_iff]
  exact ⟨List.mem_singleton_self _, rfl⟩

theorem served_inside_iff_screen :
    (∀ files served, getArtifact UsableConditions.server "/srv/artifacts" none files
      "00000000-0000-0000-0000-000000000005"
      (withArtifact (stored "00000000-0000-0000-0000-000000000003/screen.png")) = .ok served →
        Inside "/srv/artifacts" execution.id.string served.path) ↔
      "/srv/artifacts" = "/" ∨ NamesFile execution.id.string
        (stored "00000000-0000-0000-0000-000000000003/screen.png").storageKey :=
  served_inside_iff (by decide +kernel) (lookup_withArtifact _)
    (stored_stored (by decide +kernel)) (by simp) (by decide +kernel)

/-- The directory of an execution is no file inside itself. -/
theorem not_inside_self (root id : String) : ¬ Inside root id (root ++ "/" ++ id) := by
  rintro ⟨below, -, -, hpath⟩
  have hlength := congrArg (fun path : String => path.toList.length) hpath
  simp at hlength

/-- The directory of an execution is served itself. -/
theorem directory_served :
    ¬ ∀ (s : Server) (artifactRoot artifactID root : String) (workingDirectory : Option String)
      (files : Files) (db : Database) (id : UUID) (artifact : Artifact) (e : Execution)
      (served : ServedFile), s.parseUUID artifactID = some id →
      db.artifacts.lookup id = some artifact → Stored e artifact →
      (∀ directory ∈ workingDirectory, isAbs directory = true) →
      abs workingDirectory artifactRoot = some root →
      getArtifact s artifactRoot workingDirectory files artifactID db = .ok served →
      Inside root e.id.string served.path := by
  intro h
  have hpath : (match getArtifact UsableConditions.server "/srv/artifacts" none everything
      "00000000-0000-0000-0000-000000000005"
      (withArtifact (stored "00000000-0000-0000-0000-000000000003/")) with
    | .ok served => served.path
    | .error _ => "") = "/srv/artifacts" ++ "/" ++ execution.id.string := by
    decide +kernel
  split at hpath
  · rename_i served hserved
    refine not_inside_self "/srv/artifacts" execution.id.string ?_
    rw [← hpath]
    exact h _ "/srv/artifacts" _ _ none everything _ ⟨5⟩ _ execution served (by decide +kernel)
      (lookup_withArtifact _) (stored_stored (by decide +kernel)) (by simp) (by decide +kernel)
      hserved
  · exact absurd hpath (by decide +kernel)

end PriceScout.Httpapi.ArtifactFiles
