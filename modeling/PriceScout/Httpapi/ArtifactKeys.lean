import PriceScout.Library.FilePaths
import PriceScout.Store.Executions

/-!
The storage keys that the control plane takes for artifacts, read as paths.
-/

namespace PriceScout.Httpapi.ArtifactKeys

open PriceScout.Domain
open PriceScout.Library.FilePaths
open PriceScout.Library.GoStrings
open PriceScout.Store.Executions

/-! The texts of ids. -/

theorem plain_of_mem_string (id : UUID) : ∀ c ∈ id.string.toList,
    c ≠ '/' ∧ c ≠ '\\' ∧ c ≠ '.' ∧ isSpace c = false :=
  UUID.forall_mem_string (by decide) (by decide) id

theorem exists_string_eq (id : UUID) : ∃ c rest, id.string.toList = c :: rest ∧
    c ≠ '/' ∧ c ≠ '\\' ∧ c ≠ '.' ∧ isSpace c = false := by
  have hdash : '-' ∈ id.string.toList := by simp [UUID.string]
  obtain ⟨c, rest, hid⟩ := List.exists_cons_of_ne_nil (List.ne_nil_of_mem hdash)
  exact ⟨c, rest, hid, plain_of_mem_string id c (hid ▸ List.mem_cons_self)⟩

theorem isName_string (id : UUID) : IsName id.string.toList := by
  obtain ⟨c, rest, hid, -, -, hdot, -⟩ := exists_string_eq id
  refine ⟨?_, ?_, ?_, fun hslash => (plain_of_mem_string id _ hslash).1 rfl⟩
  · simp [hid]
  · simp [hid, current, hdot]
  · simp [hid, parent, hdot]

/-! What an accepted key looks like. -/

/-- A key begins with the directory of an execution, written as it is stored. -/
def Begins (id key : String) : Prop :=
  hasPrefix key (id ++ "/") = true ∨ hasPrefix key ("./" ++ id ++ "/") = true

/-- A backslash counts as a slash. -/
def converted (c : Char) : Char :=
  if c = '\\' then '/' else c

theorem converted_eq_slash {c : Char} : converted c = '/' ↔ c = '/' ∨ c = '\\' := by
  unfold converted
  split
  · simp_all
  · simp_all

theorem eq_of_converted {c d : Char} (h : converted c = d) (hd : d ≠ '/') : c = d := by
  unfold converted at h
  split at h
  · exact absurd h.symm hd
  · exact h

theorem eq_of_map_converted {v w : List Char} (h : v.map converted = w) (hslash : '/' ∉ w) :
    v = w := by
  subst h
  have hsame : ∀ c ∈ v, converted c = id c := by
    intro c hc
    refine if_neg fun hbackslash => hslash ?_
    exact List.mem_map.mpr ⟨c, hc, if_pos hbackslash⟩
  rw [List.map_congr_left hsame, List.map_id]

theorem exists_trimSpace_eq (s : String) : ∃ spaces rest : List Char,
    (∀ c ∈ spaces, isSpace c = true) ∧ s.toList = spaces ++ ((trimSpace s).toList ++ rest) := by
  refine ⟨s.toList.takeWhile isSpace, (s.toList.dropWhile isSpace).rtakeWhile isSpace,
    fun c hc => List.mem_takeWhile_imp hc, ?_⟩
  rw [trimSpace, String.toList_ofList, List.rdropWhile_append_rtakeWhile,
    List.takeWhile_append_dropWhile]

theorem exists_trimPrefix_eq (s : String) : ∃ dot : List Char,
    (dot = [] ∨ dot = ['.', '/']) ∧ s.toList = dot ++ (trimPrefix s "./").toList := by
  unfold trimPrefix
  split
  · rename_i hdot
    obtain ⟨rest, hrest⟩ := hasPrefix_iff.mp hdot
    have hdrop : s.toList.drop "./".toList.length = rest := by
      rw [← hrest]
      exact List.drop_left
    rw [hdrop, String.toList_ofList, ← hrest]
    exact ⟨['.', '/'], .inr rfl, rfl⟩
  · exact ⟨[], .inl rfl, rfl⟩

/-- Where the parts of an accepted key are: spaces, a dot with its slash, the
id with its slash, and a rest without parents inside. -/
theorem shape_of_validArtifact {e : Execution} {artifact : ResultArtifact}
    (h : validArtifact e artifact = true) :
    (∃ spaces dot rest : List Char, (∀ c ∈ spaces, isSpace c = true) ∧
      (dot = [] ∨ dot = ['.', '/']) ∧ artifact.storageKey.toList.map converted =
        spaces ++ (dot ++ (e.id.string.toList ++ '/' :: rest))) ∧
      ¬ ['.', '.', '/'] <:+: artifact.storageKey.toList := by
  unfold validArtifact at h
  simp only at h
  split at h
  · cases h
  rename_i hchecks
  simp only [not_or, not_not] at hchecks
  obtain ⟨-, -, hparents, hid, -, -⟩ := hchecks
  have hkey : (replaceChar '\\' '/' artifact.storageKey).toList =
      artifact.storageKey.toList.map converted := String.toList_ofList
  generalize replaceChar '\\' '/' artifact.storageKey = key at h hparents hid hkey
  obtain ⟨dot, hdot, htrimmed⟩ := exists_trimPrefix_eq (trimSpace key)
  constructor
  · obtain ⟨spaces, rest, hspaces, hrest⟩ := exists_trimSpace_eq key
    obtain ⟨tail, htail⟩ := hasPrefix_iff.mp hid
    refine ⟨spaces, dot, tail ++ rest, hspaces, hdot, ?_⟩
    rw [← hkey, hrest, htrimmed, ← htail, String.toList_append]
    simp
  · intro hinside
    apply hparents
    have hconverted : ['.', '.', '/'] <:+: key.toList := by
      rw [hkey]
      exact hinside.map converted
    have hmem := infix_trimSpace (by simp [isSpace]) (by decide) hconverted
    have hparent : "../".toList = ['.', '.', '/'] := rfl
    rw [htrimmed] at hmem
    rw [contains_iff, hparent]
    generalize (trimPrefix (trimSpace key) "./").toList = chars at hmem
    rcases hdot with rfl | rfl
    · exact hmem
    · simpa [List.infix_cons_iff, List.cons_prefix_cons] using hmem

/-- Parents are only found at the end of a text that they are not inside of. -/
theorem parent_not_mem_dropLast {parts : List Element}
    (h : ¬ ['.', '.', '/'] <:+: joined parts) : parent ∉ parts.dropLast := by
  induction parts with
  | nil => exact List.not_mem_nil
  | cons first parts ih =>
      cases parts with
      | nil => exact List.not_mem_nil
      | cons second parts =>
          have hjoined : joined (first :: second :: parts) =
              first ++ '/' :: joined (second :: parts) := by
            simp [joined, List.intercalate_cons_cons]
          rw [hjoined] at h
          rw [List.dropLast_cons_cons, List.mem_cons, not_or]
          constructor
          · rintro rfl
            exact h ⟨[], joined (second :: parts), rfl⟩
          · refine ih fun hinside => h ?_
            exact hinside.trans ((List.suffix_cons _ _).trans (List.suffix_append _ _)).isInfix

/-- Parents are only found at the end of the names of an accepted key. -/
theorem parent_not_mem_names {key : String} (h : ¬ ['.', '.', '/'] <:+: key.toList) :
    parent ∉ (names key).dropLast := by
  have hjoined : joined (elements key) = key.toList := List.intercalate_splitOn '/'
  have hinit := parent_not_mem_dropLast (hjoined ▸ h)
  intro hmem
  apply hinit
  rcases List.eq_nil_or_concat (elements key) with hnil | ⟨front, last, hparts⟩
  · simp [names, hnil] at hmem
  · rw [List.concat_eq_append] at hparts
    rw [hparts, List.dropLast_concat]
    rw [names, hparts, List.filter_append] at hmem
    by_cases hlast : last ≠ [] ∧ last ≠ current
    · rw [List.filter_cons_of_pos (by simpa using hlast), List.filter_nil,
        List.dropLast_concat] at hmem
      exact List.mem_of_mem_filter hmem
    · rw [List.filter_cons_of_neg (by simpa using hlast), List.filter_nil,
        List.append_nil] at hmem
      exact List.mem_of_mem_filter (List.mem_of_mem_dropLast hmem)

/-- The first name of a text that begins with more than dots. -/
theorem names_of_front {front : List Char} (hslash : '/' ∉ front) {c : Char} (hc : c ∈ front)
    (hdot : c ≠ '.') (rest : List Char) : ∃ tail others,
      names (String.ofList (front ++ rest)) = (front ++ tail) :: others := by
  obtain ⟨first, parts, hparts⟩ := List.exists_cons_of_ne_nil (List.splitOn_ne_nil '/' rest)
  have hrest : joined (first :: parts) = rest := by
    rw [← hparts]
    exact List.intercalate_splitOn '/'
  have hfirst : ∀ part ∈ (front ++ first) :: parts, '/' ∉ part := by
    intro part hpart
    rcases List.mem_cons.mp hpart with rfl | hpart
    · rw [List.mem_append, not_or]
      exact ⟨hslash, not_mem_of_mem_splitOn (hparts ▸ List.mem_cons_self)⟩
    · exact not_mem_of_mem_splitOn (hparts ▸ List.mem_cons_of_mem _ hpart)
  have hjoined : front ++ rest = joined ((front ++ first) :: parts) := by
    rw [← hrest]
    cases parts with
    | nil => simp [joined]
    | cons second parts => simp [joined, List.intercalate_cons_cons]
  have hsplit : elements (String.ofList (front ++ rest)) = (front ++ first) :: parts := by
    rw [elements, String.toList_ofList, hjoined]
    exact List.splitOn_intercalate '/' hfirst (List.cons_ne_nil _ _)
  have hproper : front ++ first ≠ [] ∧ front ++ first ≠ current := by
    constructor
    · exact List.ne_nil_of_mem (List.mem_append_left _ hc)
    · intro hcurrent
      have hmem := List.mem_append_left first hc
      rw [hcurrent, current, List.mem_singleton] at hmem
      exact hdot hmem
  refine ⟨first, parts.filter fun part => part ≠ [] ∧ part ≠ current, ?_⟩
  rw [names, hsplit]
  exact List.filter_cons_of_pos (decide_eq_true hproper)

theorem names_string (id : UUID) (rest : String) :
    names (id.string ++ "/" ++ rest) = id.string.toList :: names rest := by
  have hname := isName_string id
  have hid : elements id.string = [id.string.toList] := List.splitOn_eq_singleton hname.slash
  have hfilter : names id.string = [id.string.toList] := by
    rw [names, hid]
    exact filter_isName (List.forall_mem_singleton.mpr hname)
  rw [names_append, hfilter, List.singleton_append]

theorem begins_iff {id : UUID} {key : List Char} : Begins id.string (String.ofList key) ↔
    id.string.toList ++ ['/'] <+: key ∨ '.' :: '/' :: (id.string.toList ++ ['/']) <+: key := by
  simp only [Begins, hasPrefix_iff, String.toList_append, String.toList_ofList]
  rfl

theorem ofList_directory (id : UUID) (rest : List Char) :
    String.ofList (id.string.toList ++ '/' :: rest) = id.string ++ "/" ++ String.ofList rest := by
  rw [← String.toList_inj]
  simp

/-- The first name where the id and a slash, or a backslash, come first. -/
theorem exists_names_of_directory {id : UUID} {key rest : List Char}
    (h : key.map converted = id.string.toList ++ '/' :: rest) :
    ∃ first others, names (String.ofList key) = first :: others ∧ first ≠ parent ∧
      (first = id.string.toList ↔ id.string.toList ++ ['/'] <+: key) := by
  have hname := isName_string id
  obtain ⟨front, tail, rfl, hfront, htail⟩ := List.map_eq_append_iff.mp h
  obtain rfl := eq_of_map_converted hfront hname.slash
  obtain ⟨separator, tail, rfl, hseparator, -⟩ := List.map_eq_cons_iff.mp htail
  rcases converted_eq_slash.mp hseparator with rfl | rfl
  · refine ⟨id.string.toList, names (String.ofList tail), ?_, hname.ne_parent, ?_⟩
    · rw [ofList_directory, names_string]
    · exact ⟨fun _ => by simp [List.prefix_append_right_inj], fun _ => rfl⟩
  · have hslash : '/' ∉ id.string.toList ++ ['\\'] := by
      simpa using hname.slash
    obtain ⟨more, others, hnames⟩ := names_of_front hslash (c := '\\') (by simp) (by decide) tail
    refine ⟨_, others, by simpa using hnames, ?_, ?_⟩
    · intro hparent
      have hmem : '\\' ∈ parent := by
        rw [← hparent]
        simp
      exact absurd hmem (by decide)
    · simp [List.prefix_append_right_inj, List.cons_prefix_cons]

/-- The first name of an accepted key, which is the id where the key begins
with the directory of its execution. -/
theorem exists_names_of_shape {id : UUID} {key spaces dot rest : List Char}
    (hspaces : ∀ c ∈ spaces, isSpace c = true) (hdot : dot = [] ∨ dot = ['.', '/'])
    (h : key.map converted = spaces ++ (dot ++ (id.string.toList ++ '/' :: rest))) :
    ∃ first others, names (String.ofList key) = first :: others ∧ first ≠ parent ∧
      (first = id.string.toList ↔ Begins id.string (String.ofList key)) := by
  obtain ⟨c, chars, hid, hslash, hbackslash, hpoint, hspace⟩ := exists_string_eq id
  obtain ⟨front, key₁, rfl, hfront, hrest⟩ := List.map_eq_append_iff.mp h
  clear h
  have hnoslash : '/' ∉ spaces := fun hmem => by simpa [isSpace] using hspaces _ hmem
  obtain rfl := eq_of_map_converted hfront hnoslash
  rw [begins_iff, hid]
  cases front with
  | cons d front =>
      -- The key begins with a space, and so does its first name.
      have hd := hspaces d List.mem_cons_self
      have hdc : d ≠ c := fun heq => by simp [← heq, hd] at hspace
      have hddot : d ≠ '.' := fun heq => by simp [heq, isSpace] at hd
      have hdslash : d ≠ '/' := fun heq => by simp [heq, isSpace] at hd
      obtain ⟨tail, others, hnames⟩ := names_of_front (show '/' ∉ [d] by simpa using hdslash.symm)
        List.mem_cons_self hddot (front ++ key₁)
      refine ⟨_, others, hnames, ?_, ?_⟩
      · simp [parent, hddot]
      · simp [List.cons_prefix_cons, hdc, hdc.symm, hddot.symm]
  | nil =>
      rw [List.nil_append]
      rcases hdot with rfl | rfl
      · rw [List.nil_append] at hrest
        obtain ⟨first, others, hnames, hparent, hfirst⟩ := exists_names_of_directory hrest
        have hbegin : ¬ '.' :: '/' :: (c :: chars ++ ['/']) <+: key₁ := by
          rintro ⟨tail, rfl⟩
          rw [hid] at hrest
          exact hpoint (List.cons.inj hrest).1.symm
        refine ⟨first, others, hnames, hparent, ?_⟩
        rw [← hid, hfirst, or_iff_left]
        rwa [hid]
      · rw [List.cons_append, List.cons_append, List.nil_append] at hrest
        obtain ⟨d, key₂, rfl, hd, htail⟩ := List.map_eq_cons_iff.mp hrest
        obtain rfl : d = '.' := eq_of_converted hd (by decide)
        obtain ⟨separator, key₃, rfl, hseparator, hkey⟩ := List.map_eq_cons_iff.mp htail
        rcases converted_eq_slash.mp hseparator with rfl | rfl
        · obtain ⟨first, others, hnames, hparent, hfirst⟩ := exists_names_of_directory hkey
          refine ⟨first, others, ?_, hparent, ?_⟩
          · have happend := names_append "." (String.ofList key₃)
            have hkey : "." ++ "/" ++ String.ofList key₃ = String.ofList ('.' :: '/' :: key₃) := by
              rw [← String.toList_inj]
              simp
            rw [hkey] at happend
            rw [happend, hnames]
            rfl
          · rw [hid] at hfirst
            rw [hfirst]
            simp [List.cons_prefix_cons, hpoint]
        · obtain ⟨tail, others, hnames⟩ := names_of_front (show '/' ∉ ['.', '\\'] by decide)
            (c := '\\') (by decide) (by decide) key₃
          refine ⟨_, others, hnames, ?_, ?_⟩
          · simp [parent]
          · simp [List.cons_prefix_cons, hpoint, hpoint.symm]

theorem not_isAbs_of_shape {id : UUID} {key : String} {spaces dot rest : List Char}
    (hspaces : ∀ c ∈ spaces, isSpace c = true) (hdot : dot = [] ∨ dot = ['.', '/'])
    (h : key.toList.map converted = spaces ++ (dot ++ (id.string.toList ++ '/' :: rest))) :
    isAbs key = false := by
  obtain ⟨c, chars, hid, hslash, -⟩ := exists_string_eq id
  rw [← Bool.not_eq_true, isAbs, hasPrefix_iff]
  rintro ⟨tail, htail⟩
  have hfirst : key.toList.map converted = '/' :: tail.map converted := by
    rw [← htail]
    rfl
  rw [hfirst, hid] at h
  cases spaces with
  | cons d spaces =>
      have hd := hspaces d List.mem_cons_self
      rw [← (List.cons.inj h).1] at hd
      cases hd
  | nil =>
      rcases hdot with rfl | rfl
      · exact hslash (List.cons.inj h).1.symm
      · exact absurd (List.cons.inj h).1 (by decide)

/-- A key that names a file of its execution, unless it names nothing: with the
directory of the execution before anything else, and a name below it that no
parent takes back. -/
def NamesFile (id key : String) : Prop :=
  if (names key).getLast? = some parent then
    (names key).length = 2 ∨ (Begins id key ∧ 4 ≤ (names key).length)
  else Begins id key ∧ 2 ≤ (names key).length

theorem exists_below_iff {first id : Element} {more : List Element} :
    (∃ below, below ≠ [] ∧ first :: more = id :: below) ↔ first = id ∧ 1 ≤ more.length := by
  constructor
  · rintro ⟨below, hbelow, heq⟩
    obtain ⟨rfl, rfl⟩ := List.cons.inj heq
    exact ⟨rfl, List.length_pos_iff.mpr hbelow⟩
  · rintro ⟨rfl, hmore⟩
    exact ⟨more, List.length_pos_iff.mp hmore, rfl⟩

theorem exists_below_dropLast_iff {first id : Element} {more : List Element} :
    (∃ below, below ≠ [] ∧ (first :: more).dropLast = id :: below) ↔
      first = id ∧ 2 ≤ more.length := by
  cases more with
  | nil => simp
  | cons second more =>
      rw [List.dropLast_cons_cons, exists_below_iff, List.length_dropLast, List.length_cons]
      exact and_congr_right fun _ => by omega

/-- The elements that the clean form of an accepted key has. -/
theorem exists_clean_eq {e : Execution} {artifact : ResultArtifact}
    (h : validArtifact e artifact = true) : ∃ reached : List Element,
      (∀ element ∈ reached, IsName element) ∧ clean artifact.storageKey = relative reached ∧
      ((reached = [] ∨ ∃ below, below ≠ [] ∧ reached = e.id.string.toList :: below) ↔
        NamesFile e.id.string artifact.storageKey) := by
  obtain ⟨⟨spaces, dot, rest, hspaces, hdot, hshape⟩, hparents⟩ := shape_of_validArtifact h
  obtain ⟨first, others, hnames, hfirst, hbegins⟩ := exists_names_of_shape hspaces hdot hshape
  rw [String.ofList_toList] at hnames hbegins
  have hclean : clean artifact.storageKey = relative (walk false (first :: others)) := by
    rw [clean, not_isAbs_of_shape hspaces hdot hshape, if_neg Bool.false_ne_true, walk_names,
      hnames]
  have hinit := parent_not_mem_names hparents
  have hname : ∀ element ∈ first :: others, element ≠ parent → IsName element :=
    fun element helement => isName_of_mem_names (hnames ▸ helement)
  rw [hnames] at hinit
  rw [hclean, NamesFile, hnames, ← hbegins]
  rcases List.eq_nil_or_concat others with rfl | ⟨more, last, rfl⟩
  · -- The first name is all that there is.
    have hall : ∀ element ∈ [first], IsName element :=
      fun element helement => hname element helement (List.mem_singleton.mp helement ▸ hfirst)
    refine ⟨[first], hall, by rw [walk_of_isName false hall], ?_⟩
    simp [hfirst]
  rw [List.concat_eq_append, ← List.cons_append] at hinit hname ⊢
  rw [List.dropLast_concat] at hinit
  have hfront : ∀ element ∈ first :: more, IsName element := fun element helement =>
    hname element (List.mem_append_left _ helement) (ne_of_mem_of_not_mem helement hinit)
  rw [List.getLast?_concat, List.length_append, List.length_cons, List.length_singleton]
  rcases eq_or_ne last parent with rfl | hne
  · refine ⟨(first :: more).dropLast,
      fun element helement => hfront element (List.mem_of_mem_dropLast helement),
      by rw [walk_parent false hfront (List.cons_ne_nil first more)], ?_⟩
    have hnil : (first :: more).dropLast = [] ↔ more.length = 0 := by
      rw [← List.length_eq_zero_iff, List.length_dropLast, List.length_cons, Nat.add_sub_cancel]
    have htwo : more.length + 1 + 1 = 2 ↔ more.length = 0 := by omega
    have hfour : 4 ≤ more.length + 1 + 1 ↔ 2 ≤ more.length := by omega
    rw [if_pos rfl, exists_below_dropLast_iff, hnil, htwo, hfour]
  · have hall : ∀ element ∈ first :: more ++ [last], IsName element := by
      intro element helement
      rcases List.mem_append.mp helement with hmem | hmem
      · exact hfront element hmem
      · exact hname element helement (List.mem_singleton.mp hmem ▸ hne)
    refine ⟨first :: more ++ [last], hall, by rw [walk_of_isName false hall], ?_⟩
    rw [if_neg (by simpa using hne), List.cons_append, exists_below_iff, List.length_append,
      List.length_singleton, or_iff_right (List.cons_ne_nil _ _)]
    exact and_congr_right fun _ => by omega

end PriceScout.Httpapi.ArtifactKeys
