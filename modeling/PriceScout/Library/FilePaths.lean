import PriceScout.Library.GoStrings

/-!
The paths of Go's `path/filepath` where the separator is a slash, by the
elements between their slashes.
-/

namespace PriceScout.Library.FilePaths

open PriceScout.Library.GoStrings

abbrev Element := List Char

def current : Element :=
  ['.']

def parent : Element :=
  ['.', '.']

def elements (path : String) : List Element :=
  path.toList.splitOn '/'

/-- The text of elements with slashes between them. -/
def joined (elements : List Element) : List Char :=
  ['/'].intercalate elements

/-- Where a parent leads from the elements reached so far, the last of them first. -/
def back (rooted : Bool) : List Element → List Element
  | [] => if rooted then [] else [parent]
  | last :: before => if last = parent then parent :: last :: before else before

def enter (rooted : Bool) (reached : List Element) (element : Element) : List Element :=
  if element = [] ∨ element = current then reached
  else if element = parent then back rooted reached
  else element :: reached

def walk (rooted : Bool) (elements : List Element) : List Element :=
  (elements.foldl (enter rooted) []).reverse

def absolute (names : List Element) : String :=
  String.ofList ('/' :: joined names)

def relative (names : List Element) : String :=
  if names = [] then "." else String.ofList (joined names)

/-- `filepath.IsAbs`. -/
def isAbs (path : String) : Bool :=
  hasPrefix path "/"

/-- `filepath.Clean`. -/
def clean (path : String) : String :=
  if isAbs path then absolute (walk true (elements path))
  else relative (walk false (elements path))

/-- `filepath.Join`. -/
def join (paths : List String) : String :=
  match paths.dropWhile (· = "") with
  | [] => ""
  | rest => clean (String.ofList (joined (rest.map String.toList)))

/-- `filepath.Abs`, from the directory that `os.Getwd` returns. -/
def abs (workingDirectory : Option String) (path : String) : Option String :=
  if isAbs path then some (clean path)
  else workingDirectory.map fun directory => join [directory, path]

example : clean "a//./b/../c/" = "a/c" := by decide

example : clean "/../x" = "/x" := by decide

example : join ["/srv/artifacts", "id/a/.."] = "/srv/artifacts/id" := by decide

/-! Names, the elements that lead somewhere below. -/

structure IsName (element : Element) : Prop where
  ne_nil : element ≠ []
  ne_current : element ≠ current
  ne_parent : element ≠ parent
  slash : '/' ∉ element

/-- The elements that lead somewhere. -/
def names (path : String) : List Element :=
  (elements path).filter fun element => element ≠ [] ∧ element ≠ current

theorem mem_names {path : String} {element : Element} :
    element ∈ names path ↔ element ∈ elements path ∧ element ≠ [] ∧ element ≠ current := by
  simp [names]

theorem not_mem_of_mem_splitOn {x : Char} {text part : List Char} (h : part ∈ text.splitOn x) :
    x ∉ part := by
  induction text generalizing part with
  | nil =>
      rw [List.splitOn_nil, List.mem_singleton] at h
      rw [h]
      exact List.not_mem_nil
  | cons c text ih =>
      rw [List.splitOn_cons_eq_if_modifyHead] at h
      split at h
      · rcases List.mem_cons.mp h with rfl | h
        · exact List.not_mem_nil
        · exact ih h
      · rename_i hne
        cases hparts : text.splitOn x with
        | nil => exact absurd hparts (List.splitOn_ne_nil x text)
        | cons first parts =>
            rw [hparts, List.modifyHead_cons, List.mem_cons] at h
            rcases h with rfl | h
            · rw [List.mem_cons, not_or]
              exact ⟨fun heq => hne (by simp [heq]), ih (hparts ▸ List.mem_cons_self)⟩
            · exact ih (hparts ▸ List.mem_cons_of_mem _ h)

theorem isName_of_mem_names {path : String} {element : Element} (h : element ∈ names path)
    (hne : element ≠ parent) : IsName element := by
  obtain ⟨hmem, hnil, hcurrent⟩ := mem_names.mp h
  exact ⟨hnil, hcurrent, hne, not_mem_of_mem_splitOn hmem⟩

theorem names_append (front rest : String) :
    names (front ++ "/" ++ rest) = names front ++ names rest := by
  have helements : elements (front ++ "/" ++ rest) = elements front ++ elements rest := by
    simp only [elements, String.toList_append, List.append_assoc]
    exact List.splitOn_append_cons_self _ _
  rw [names, helements, List.filter_append]
  rfl

theorem filter_isName {list : List Element} (h : ∀ element ∈ list, IsName element) :
    list.filter (fun element => element ≠ [] ∧ element ≠ current) = list := by
  rw [List.filter_eq_self]
  intro element helement
  have hname := h element helement
  simp [hname.ne_nil, hname.ne_current]

theorem splitOn_joined {list : List Element} (h : ∀ element ∈ list, IsName element)
    (hne : list ≠ []) : (joined list).splitOn '/' = list :=
  List.splitOn_intercalate '/' (fun element helement => (h element helement).slash) hne

theorem names_absolute {list : List Element} (h : ∀ element ∈ list, IsName element) :
    names (absolute list) = list := by
  have hsplit : elements (absolute list) = [] :: (joined list).splitOn '/' := by
    rw [elements, absolute, String.toList_ofList]
    exact List.splitOn_append_cons_self [] _
  rw [names, hsplit]
  rcases eq_or_ne list [] with rfl | hne
  · rfl
  · rw [splitOn_joined h hne]
    exact filter_isName h

theorem names_relative {list : List Element} (h : ∀ element ∈ list, IsName element) :
    names (relative list) = list := by
  rcases eq_or_ne list [] with rfl | hne
  · decide
  · rw [names, relative, if_neg hne, elements, String.toList_ofList, splitOn_joined h hne]
    exact filter_isName h

theorem absolute_inj {list list' : List Element} (h : ∀ element ∈ list, IsName element)
    (h' : ∀ element ∈ list', IsName element) : absolute list = absolute list' ↔ list = list' := by
  constructor
  · intro heq
    rw [← names_absolute h, heq, names_absolute h']
  · rintro rfl
    rfl

/-! Walks. -/

section Steps

variable {rooted : Bool} {reached : List Element} {element : Element}

theorem enter_of_skipped (h : element = [] ∨ element = current) :
    enter rooted reached element = reached :=
  if_pos h

theorem enter_parent : enter rooted reached parent = back rooted reached := by
  simp [enter, parent, current]

theorem enter_of_proper (h : ¬ (element = [] ∨ element = current)) (hne : element ≠ parent) :
    enter rooted reached element = element :: reached := by
  rw [enter, if_neg h, if_neg hne]

theorem enter_of_isName (h : IsName element) : enter rooted reached element = element :: reached :=
  enter_of_proper (by simp [h.ne_nil, h.ne_current]) h.ne_parent

theorem back_of_ne (h : element ≠ parent) : back rooted (element :: reached) = reached :=
  if_neg h

end Steps

theorem walk_names (rooted : Bool) (path : String) :
    walk rooted (elements path) = walk rooted (names path) := by
  rw [walk, walk, names, List.foldl_filter]
  congr 2
  funext reached element
  by_cases hskip : element = [] ∨ element = current
  · have hfilter : ¬ (element ≠ [] ∧ element ≠ current) := by tauto
    rw [enter_of_skipped hskip, if_neg (by simpa using hfilter)]
  · have hfilter : element ≠ [] ∧ element ≠ current := by tauto
    rw [if_pos (by simpa using hfilter)]

theorem foldl_enter_of_isName (rooted : Bool) {list : List Element}
    (h : ∀ element ∈ list, IsName element) (reached : List Element) :
    list.foldl (enter rooted) reached = list.reverse ++ reached := by
  induction list generalizing reached with
  | nil => rfl
  | cons element list ih =>
      rw [List.foldl_cons, enter_of_isName (h element List.mem_cons_self),
        ih fun e he => h e (List.mem_cons_of_mem _ he), List.reverse_cons, List.append_assoc,
        List.singleton_append]

/-- Names are walked one after another. -/
theorem walk_of_isName (rooted : Bool) {list : List Element}
    (h : ∀ element ∈ list, IsName element) : walk rooted list = list := by
  rw [walk, foldl_enter_of_isName rooted h, List.append_nil, List.reverse_reverse]

/-- A parent after names takes the last of them back. -/
theorem walk_parent (rooted : Bool) {list : List Element} (h : ∀ element ∈ list, IsName element)
    (hne : list ≠ []) : walk rooted (list ++ [parent]) = list.dropLast := by
  obtain ⟨front, last, rfl⟩ := (List.eq_nil_or_concat list).resolve_left hne
  rw [List.concat_eq_append] at h ⊢
  have hlast : last ≠ parent := (h last (by simp)).ne_parent
  rw [walk, List.foldl_append, foldl_enter_of_isName rooted h, List.append_nil, List.foldl_cons,
    List.foldl_nil, enter_parent, List.reverse_append, List.reverse_singleton,
    List.singleton_append, back_of_ne hlast, List.reverse_reverse, List.dropLast_concat]

/-- A step from names reached from the root reaches names. -/
theorem isName_of_mem_enter {path : String} {element : Element} {reached : List Element}
    (h : element ∈ elements path) (hreached : ∀ e ∈ reached, IsName e) :
    ∀ e ∈ enter true reached element, IsName e := by
  by_cases hskip : element = [] ∨ element = current
  · rwa [enter_of_skipped hskip]
  rcases eq_or_ne element parent with rfl | hne
  · rw [enter_parent]
    cases reached with
    | nil => simp [back]
    | cons last before =>
        rw [back_of_ne (hreached last List.mem_cons_self).ne_parent]
        exact fun e he => hreached e (List.mem_cons_of_mem _ he)
  · rw [enter_of_proper hskip hne]
    rintro e he
    rcases List.mem_cons.mp he with rfl | he
    · exact ⟨fun heq => hskip (.inl heq), fun heq => hskip (.inr heq), hne,
        not_mem_of_mem_splitOn h⟩
    · exact hreached e he

/-- From the root only names are reached. -/
theorem isName_of_mem_walk {path : String} {element : Element}
    (h : element ∈ walk true (elements path)) : IsName element := by
  have hfold : ∀ list reached : List Element, (∀ e ∈ list, e ∈ elements path) →
      (∀ e ∈ reached, IsName e) → ∀ e ∈ list.foldl (enter true) reached, IsName e := by
    intro list
    induction list with
    | nil => exact fun reached _ hreached => hreached
    | cons first list ih =>
        intro reached hlist hreached
        apply ih
        · exact fun e he => hlist e (List.mem_cons_of_mem _ he)
        · exact isName_of_mem_enter (hlist first List.mem_cons_self) hreached
  exact hfold _ [] (fun e he => he) (by simp) element (List.mem_reverse.mp h)

/-! Clean paths. -/

theorem isAbs_absolute (list : List Element) : isAbs (absolute list) = true := by
  simp [isAbs, hasPrefix, absolute]

theorem exists_of_isAbs {path : String} (h : isAbs path = true) :
    ∃ list : List Element, (∀ element ∈ list, IsName element) ∧ clean path = absolute list :=
  ⟨walk true (elements path), fun _ => isName_of_mem_walk, if_pos h⟩

theorem clean_absolute {list : List Element} (h : ∀ element ∈ list, IsName element) :
    clean (absolute list) = absolute list := by
  rw [clean, if_pos (isAbs_absolute list), walk_names, names_absolute h, walk_of_isName true h]

theorem join_cons {front : String} (h : front ≠ "") (rest : String) :
    join [front, rest] = clean (front ++ "/" ++ rest) := by
  rw [join, List.dropWhile_cons_of_neg (by simpa using h)]
  simp only [joined, List.map_cons, List.map_nil, List.intercalate_cons_cons,
    List.intercalate_singleton]
  simp [String.ofList_append, String.append_assoc]

/-- Names below an absolute path. -/
theorem join_absolute {list below : List Element} (h : ∀ element ∈ list, IsName element)
    (hbelow : ∀ element ∈ below, IsName element) :
    join [absolute list, relative below] = absolute (list ++ below) := by
  have hne : absolute list ≠ "" := by
    intro heq
    have habs := isAbs_absolute list
    rw [heq] at habs
    cases habs
  have habs : isAbs (absolute list ++ "/" ++ relative below) = true := by
    simp [isAbs, hasPrefix, absolute]
  have hall : ∀ element ∈ list ++ below, IsName element := by
    intro element helement
    exact (List.mem_append.mp helement).elim (h element) (hbelow element)
  rw [join_cons hne, clean, if_pos habs, walk_names, names_append, names_absolute h,
      names_relative hbelow,
    walk_of_isName true hall]

/-- The working directory is absolute, and so is every path made absolute. -/
theorem exists_of_abs {workingDirectory : Option String} {path root : String}
    (hdirectory : ∀ directory ∈ workingDirectory, isAbs directory = true)
    (h : abs workingDirectory path = some root) :
    ∃ list : List Element, (∀ element ∈ list, IsName element) ∧ root = absolute list := by
  unfold abs at h
  split at h
  · rename_i habs
    obtain ⟨list, hlist, hclean⟩ := exists_of_isAbs habs
    rw [Option.some.injEq] at h
    exact ⟨list, hlist, h ▸ hclean⟩
  · obtain ⟨directory, hmem, rfl⟩ := Option.map_eq_some_iff.mp h
    have habs := hdirectory directory hmem
    have hne : directory ≠ "" := by
      rintro rfl
      cases habs
    have hlong : isAbs (directory ++ "/" ++ path) = true := by
      rw [isAbs, hasPrefix, List.isPrefixOf_iff_prefix] at habs ⊢
      rw [String.toList_append, String.toList_append, List.append_assoc]
      exact habs.trans (List.prefix_append _ _)
    obtain ⟨list, hlist, hclean⟩ := exists_of_isAbs hlong
    refine ⟨list, hlist, ?_⟩
    rw [join_cons hne, hclean]

/-! Paths below a root. -/

theorem joined_append {list below : List Element} (h : list ≠ []) (hbelow : below ≠ []) :
    joined (list ++ below) = joined list ++ '/' :: joined below := by
  induction list with
  | nil => exact absurd rfl h
  | cons element list ih =>
      cases list with
      | nil =>
          obtain ⟨second, below, rfl⟩ := List.exists_cons_of_ne_nil hbelow
          simp [joined, List.intercalate_cons_cons]
      | cons second list =>
          have hjoined := ih (List.cons_ne_nil second list)
          simp only [joined, List.cons_append, List.intercalate_cons_cons] at hjoined ⊢
          rw [hjoined]
          simp

theorem absolute_append {list below : List Element} (h : list ≠ []) (hbelow : below ≠ []) :
    absolute (list ++ below) = absolute list ++ "/" ++ String.ofList (joined below) := by
  rw [← String.toList_inj, absolute, joined_append h hbelow]
  simp [absolute]

theorem joined_ne_slash {list : List Element} (h : ∀ element ∈ list, IsName element)
    {tail : List Char} : joined list ≠ '/' :: tail := by
  intro heq
  rcases eq_or_ne list [] with rfl | hne
  · cases heq
  · have hsplit := splitOn_joined h hne
    have hslash : ('/' :: tail).splitOn '/' = [] :: tail.splitOn '/' :=
      List.splitOn_append_cons_self [] tail
    rw [heq, hslash] at hsplit
    exact (h [] (hsplit ▸ List.mem_cons_self)).ne_nil rfl

/-- A path lies below a root unless one of them is the root of all paths. -/
theorem hasPrefix_absolute_iff {list below : List Element}
    (hbelow : ∀ element ∈ below, IsName element) :
    hasPrefix (absolute (list ++ below)) (absolute list ++ "/") = true ↔
      list ≠ [] ∧ below ≠ [] := by
  rw [hasPrefix_iff]
  constructor
  · intro h
    constructor
    · rintro rfl
      obtain ⟨tail, htail⟩ := h
      simp only [String.toList_append, absolute, String.toList_ofList, List.nil_append] at htail
      exact joined_ne_slash hbelow (List.cons.inj htail).2.symm
    · rintro rfl
      have hle := h.length_le
      rw [List.append_nil, String.toList_append, List.length_append] at hle
      exact absurd hle (by simp)
  · rintro ⟨h, hne⟩
    refine ⟨joined below, ?_⟩
    rw [absolute_append h hne]
    simp

theorem not_isAbs_relative {list : List Element} (h : ∀ element ∈ list, IsName element) :
    isAbs (relative list) = false := by
  rcases eq_or_ne list [] with rfl | hne
  · rfl
  · have hchars : (relative list).toList = joined list := by
      rw [relative, if_neg hne]
      exact String.toList_ofList
    rw [← Bool.not_eq_true, isAbs, hasPrefix_iff, hchars]
    rintro ⟨tail, htail⟩
    exact joined_ne_slash h htail.symm

end PriceScout.Library.FilePaths
