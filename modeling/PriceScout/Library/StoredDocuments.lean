import Mathlib.Data.String.Basic
import PriceScout.Library.JsonDocuments

/-!
What a `jsonb` column of Postgres keeps of a document: an object holds each key
once, with its last value, and in an order of its own, and a number is kept by
its value. The entries of a Go map are kept in the same way.
-/

namespace PriceScout.Library.StoredDocuments

open PriceScout.Library.GoStrings
open PriceScout.Library.JsonDocuments

universe u

/-- The order of the keys of an object: the shorter first, then by their bytes. -/
def keyBefore (key key' : String) : Prop :=
  byteLength key < byteLength key' ∨ byteLength key = byteLength key' ∧ key < key'

instance (key key' : String) : Decidable (keyBefore key key') :=
  inferInstanceAs (Decidable (_ ∨ _))

theorem keyBefore_irrefl (key : String) : ¬ keyBefore key key := by
  simp [keyBefore]

theorem keyBefore_trans {key₁ key₂ key₃ : String} (h₁ : keyBefore key₁ key₂)
    (h₂ : keyBefore key₂ key₃) : keyBefore key₁ key₃ := by
  rcases h₁ with h₁ | ⟨h₁, hlt₁⟩
  · rcases h₂ with h₂ | ⟨h₂, -⟩
    · exact Or.inl (h₁.trans h₂)
    · exact Or.inl (h₂ ▸ h₁)
  · rcases h₂ with h₂ | ⟨h₂, hlt₂⟩
    · exact Or.inl (h₁ ▸ h₂)
    · exact Or.inr ⟨h₁.trans h₂, hlt₁.trans hlt₂⟩

theorem keyBefore_trichotomy (key key' : String) :
    key = key' ∨ keyBefore key key' ∨ keyBefore key' key := by
  unfold keyBefore
  rcases lt_trichotomy (byteLength key) (byteLength key') with hlength | hlength | hlength
  · exact Or.inr (Or.inl (Or.inl hlength))
  · rcases lt_trichotomy key key' with hkey | hkey | hkey
    · exact Or.inr (Or.inl (Or.inr ⟨hlength, hkey⟩))
    · exact Or.inl hkey
    · exact Or.inr (Or.inr (Or.inr ⟨hlength.symm, hkey⟩))
  · exact Or.inr (Or.inr (Or.inl hlength))

section Entries

variable {α β : Type u}

/-- Put an entry in front of entries that come later and win over it. -/
def insertEntry (key : String) (value : α) : List (String × α) → List (String × α)
  | [] => [(key, value)]
  | entry :: rest =>
      if key = entry.1 then entry :: rest
      else if keyBefore key entry.1 then (key, value) :: entry :: rest
      else entry :: insertEntry key value rest

/-- The entries that a list of assignments leaves. -/
def entries (assignments : List (String × α)) : List (String × α) :=
  assignments.foldr (fun entry rest => insertEntry entry.1 entry.2 rest) []

@[simp] theorem entries_nil : entries ([] : List (String × α)) = [] :=
  rfl

@[simp] theorem entries_cons (entry : String × α) (rest : List (String × α)) :
    entries (entry :: rest) = insertEntry entry.1 entry.2 (entries rest) :=
  rfl

/-- Entries in the order of their keys. -/
def Ordered (l : List (String × α)) : Prop :=
  l.Pairwise fun entry entry' => keyBefore entry.1 entry'.1

theorem mem_insertEntry {key : String} {value : α} {l : List (String × α)} {entry : String × α}
    (h : entry ∈ insertEntry key value l) : entry = (key, value) ∨ entry ∈ l := by
  induction l with
  | nil => exact Or.inl (by simpa [insertEntry] using h)
  | cons first rest ih =>
      unfold insertEntry at h
      split at h
      · exact Or.inr h
      · split at h
        · exact List.mem_cons.mp h
        · rcases List.mem_cons.mp h with rfl | hrest
          · exact Or.inr (List.mem_cons_self ..)
          · exact (ih hrest).imp_right (List.mem_cons_of_mem _)

theorem Ordered.insertEntry {key : String} {value : α} {l : List (String × α)} (h : Ordered l) :
    Ordered (insertEntry key value l) := by
  induction l with
  | nil => exact List.pairwise_singleton _ _
  | cons first rest ih =>
      obtain ⟨hfirst, hrest⟩ := List.pairwise_cons.mp h
      unfold StoredDocuments.insertEntry
      split
      · exact h
      · split
        · rename_i hbefore
          refine List.pairwise_cons.mpr ⟨fun entry hentry => ?_, h⟩
          rcases List.mem_cons.mp hentry with rfl | hlater
          · exact hbefore
          · exact keyBefore_trans hbefore (hfirst entry hlater)
        · rename_i hne hnot
          refine List.pairwise_cons.mpr ⟨fun entry hentry => ?_, ih hrest⟩
          rcases mem_insertEntry hentry with rfl | hlater
          · exact (keyBefore_trichotomy key first.1).elim (absurd · hne) (·.resolve_left hnot)
          · exact hfirst entry hlater

theorem ordered_entries (assignments : List (String × α)) : Ordered (entries assignments) := by
  induction assignments with
  | nil => exact List.Pairwise.nil
  | cons entry rest ih => exact ih.insertEntry

theorem entries_of_ordered {l : List (String × α)} (h : Ordered l) : entries l = l := by
  induction l with
  | nil => rfl
  | cons entry rest ih =>
      obtain ⟨hfirst, hrest⟩ := List.pairwise_cons.mp h
      rw [entries_cons, ih hrest]
      cases rest with
      | nil => rfl
      | cons next rest =>
          have hbefore := hfirst next (List.mem_cons_self ..)
          have hne : entry.1 ≠ next.1 := fun heq => keyBefore_irrefl _ (heq ▸ hbefore)
          simp [insertEntry, hne, hbefore]

/-- Assignments under other keys are not seen by a test of keys. -/
theorem filter_insertEntry_of_neg {p : String → Bool} {key : String} {value : α}
    {l : List (String × α)} (h : p key = false) :
    (insertEntry key value l).filter (fun entry => p entry.1) =
      l.filter fun entry => p entry.1 := by
  induction l with
  | nil => simp [insertEntry, h]
  | cons first rest ih =>
      unfold insertEntry
      split
      · rfl
      · split
        · simp [h]
        · simp only [List.filter_cons, ih]

theorem filter_insertEntry_of_nil {p : String → Bool} {key : String} {value : α}
    {l : List (String × α)} (h : p key = true) (hnone : l.filter (fun entry => p entry.1) = []) :
    (insertEntry key value l).filter (fun entry => p entry.1) = [(key, value)] := by
  induction l with
  | nil => simp [insertEntry, h]
  | cons first rest ih =>
      have hfirst : p first.1 = false := by
        simpa using List.filter_eq_nil_iff.mp hnone first (List.mem_cons_self ..)
      have hrest : rest.filter (fun entry => p entry.1) = [] :=
        List.filter_eq_nil_iff.mpr fun entry hentry =>
          List.filter_eq_nil_iff.mp hnone entry (List.mem_cons_of_mem _ hentry)
      have hne : key ≠ first.1 := by
        rintro rfl
        simp [h] at hfirst
      unfold insertEntry
      rw [if_neg hne]
      split
      · simp [h, hfirst, hrest]
      · simp [hfirst, ih hrest]

/-- A key that is assigned at most once keeps its one value. -/
theorem filter_entries {p : String → Bool} {assignments : List (String × α)}
    (h : (assignments.filter fun entry => p entry.1).length ≤ 1) :
    (entries assignments).filter (fun entry => p entry.1) =
      assignments.filter fun entry => p entry.1 := by
  induction assignments with
  | nil => rfl
  | cons entry rest ih =>
      rw [entries_cons]
      cases hp : p entry.1 with
      | false =>
          simp only [List.filter_cons, hp] at h ⊢
          rw [filter_insertEntry_of_neg hp]
          exact ih h
      | true =>
          simp only [List.filter_cons, hp, if_true, List.length_cons] at h ⊢
          have hnil : rest.filter (fun entry => p entry.1) = [] :=
            List.eq_nil_of_length_eq_zero (by omega)
          have hrest := ih (by omega)
          rw [filter_insertEntry_of_nil hp (hrest.trans hnil), hnil]

/-- Changing values alone does not change which assignments win. -/
theorem map_insertEntry (f : α → β) (key : String) (value : α) (l : List (String × α)) :
    (insertEntry key value l).map (fun entry => (entry.1, f entry.2)) =
      insertEntry key (f value) (l.map fun entry => (entry.1, f entry.2)) := by
  induction l with
  | nil => rfl
  | cons first rest ih =>
      simp only [insertEntry, List.map_cons]
      split
      · rfl
      · split
        · rfl
        · simp [ih]

theorem map_entries (f : α → β) (assignments : List (String × α)) :
    (entries assignments).map (fun entry => (entry.1, f entry.2)) =
      entries (assignments.map fun entry => (entry.1, f entry.2)) := by
  induction assignments with
  | nil => rfl
  | cons entry rest ih => simp [map_insertEntry, ih]

theorem mem_entries {assignments : List (String × α)} {entry : String × α}
    (h : entry ∈ entries assignments) : entry ∈ assignments := by
  induction assignments with
  | nil => exact h
  | cons first rest ih =>
      rcases mem_insertEntry h with rfl | hrest
      · exact List.mem_cons_self ..
      · exact List.mem_cons_of_mem _ (ih hrest)

/-- A key that comes later wins. -/
theorem insertEntry_of_mem {key : String} {value : α} {l : List (String × α)} (h : Ordered l)
    (hmem : ∃ entry ∈ l, entry.1 = key) : insertEntry key value l = l := by
  induction l with
  | nil =>
      obtain ⟨entry, hentry, -⟩ := hmem
      cases hentry
  | cons first rest ih =>
      obtain ⟨hfirst, hrest⟩ := List.pairwise_cons.mp h
      unfold insertEntry
      split
      · rfl
      · rename_i hne
        obtain ⟨entry, hentry, rfl⟩ := hmem
        rcases List.mem_cons.mp hentry with rfl | hlater
        · exact absurd rfl hne
        · rw [if_neg fun hbefore =>
            keyBefore_irrefl _ (keyBefore_trans hbefore (hfirst entry hlater)),
            ih hrest ⟨entry, hlater, rfl⟩]

theorem lastValue_eq_none_iff {key : String} {l : List (String × α)} :
    Json.lastValue key l = none ↔ ∀ entry ∈ l, entry.1 ≠ key := by
  simp [Json.lastValue]

theorem lastValue_cons (key : String) (entry : String × α) (l : List (String × α)) :
    Json.lastValue key (entry :: l) =
      (Json.lastValue key l).or (if entry.1 = key then some entry.2 else none) := by
  unfold Json.lastValue
  by_cases hkey : entry.1 = key
  · simp only [List.filter_cons, hkey, decide_true, if_true, List.getLast?_cons]
    cases (l.filter fun entry => decide (entry.1 = key)).getLast? <;> rfl
  · simp [hkey]

theorem lastValue_append (key : String) (l l' : List (String × α)) :
    Json.lastValue key (l ++ l') = (Json.lastValue key l').or (Json.lastValue key l) := by
  induction l with
  | nil => simp [Json.lastValue]
  | cons entry rest ih => rw [List.cons_append, lastValue_cons, lastValue_cons, ih, Option.or_assoc]

theorem lastValue_map (f : α → β) (key : String) (l : List (String × α)) :
    Json.lastValue key (l.map fun entry => (entry.1, f entry.2)) =
      (Json.lastValue key l).map f := by
  induction l with
  | nil => rfl
  | cons entry rest ih =>
      rw [List.map_cons, lastValue_cons, lastValue_cons, ih]
      split <;> cases Json.lastValue key rest <;> rfl

theorem mem_of_lastValue {key : String} {value : α} {l : List (String × α)}
    (h : Json.lastValue key l = some value) : (key, value) ∈ l := by
  obtain ⟨entry, hentry, rfl⟩ := Option.map_eq_some_iff.mp h
  obtain ⟨hmem, hkey⟩ := List.mem_filter.mp (List.mem_of_getLast? hentry)
  obtain rfl : entry.1 = key := by simpa using hkey
  exact hmem

/-- The entries keep the last value of every key. -/
theorem lastValue_entries (key : String) (assignments : List (String × α)) :
    Json.lastValue key (entries assignments) = Json.lastValue key assignments := by
  induction assignments with
  | nil => rfl
  | cons entry rest ih =>
      rw [entries_cons, lastValue_cons, ← ih]
      by_cases hkey : entry.1 = key
      · rw [if_pos hkey]
        by_cases hmem : ∃ later ∈ entries rest, later.1 = entry.1
        · rw [insertEntry_of_mem (ordered_entries rest) hmem]
          cases hlast : Json.lastValue key (entries rest) with
          | none =>
              obtain ⟨later, hlater, hsame⟩ := hmem
              exact absurd (hsame.trans hkey) (lastValue_eq_none_iff.mp hlast later hlater)
          | some value => rfl
        · have hnil : (entries rest).filter (fun later => decide (later.1 = key)) = [] := by
            refine List.filter_eq_nil_iff.mpr fun later hlater hsame => hmem ⟨later, hlater, ?_⟩
            exact (of_decide_eq_true hsame).trans hkey.symm
          have hlast : Json.lastValue key (entries rest) = none := by
            rw [Json.lastValue, hnil]
            rfl
          rw [hlast, Json.lastValue,
            filter_insertEntry_of_nil (p := fun later => decide (later = key)) (by simp [hkey])
              hnil]
          rfl
      · rw [if_neg hkey, Option.or_none, Json.lastValue,
          filter_insertEntry_of_neg (p := fun later => decide (later = key)) (by simp [hkey])]
        rfl

/-- In entries with each key once, the first value of a key is the last. -/
theorem find_of_ordered {key : String} {l : List (String × α)} (h : Ordered l) :
    (l.find? fun entry => decide (entry.1 = key)).map (·.2) = Json.lastValue key l := by
  induction l with
  | nil => rfl
  | cons first rest ih =>
      obtain ⟨hfirst, hrest⟩ := List.pairwise_cons.mp h
      rw [lastValue_cons, ← ih hrest, List.find?_cons]
      by_cases hkey : first.1 = key
      · have hnone : rest.find? (fun entry => decide (entry.1 = key)) = none := by
          refine List.find?_eq_none.mpr fun entry hentry hsame => ?_
          refine keyBefore_irrefl first.1 ?_
          simpa [hkey, of_decide_eq_true hsame] using hfirst entry hentry
        simp [hkey, hnone]
      · simp [hkey]

theorem lastValue_of_mem {key : String} {value : α} {l : List (String × α)} (h : Ordered l)
    (hmem : (key, value) ∈ l) : Json.lastValue key l = some value := by
  induction l with
  | nil => cases hmem
  | cons first rest ih =>
      obtain ⟨hfirst, hrest⟩ := List.pairwise_cons.mp h
      rw [lastValue_cons]
      rcases List.mem_cons.mp hmem with rfl | hlater
      · have hnone : Json.lastValue key rest = none :=
          lastValue_eq_none_iff.mpr fun entry hentry hsame =>
            keyBefore_irrefl key (by simpa [hsame] using hfirst entry hentry)
        simp [hnone]
      · rw [ih hrest hlater]
        rfl

theorem lastValue_filter_ne (key name : String) (l : List (String × α)) :
    Json.lastValue key (l.filter fun entry => entry.1 ≠ name) =
      if key = name then none else Json.lastValue key l := by
  induction l with
  | nil => simp [Json.lastValue]
  | cons entry rest ih =>
      rw [List.filter_cons, lastValue_cons]
      by_cases hname : entry.1 = name
      · rw [if_neg (by simp [hname]), ih]
        by_cases hkey : key = name
        · simp [hkey]
        · rw [if_neg hkey, if_neg hkey, if_neg (by rw [hname]; exact Ne.symm hkey), Option.or_none]
      · rw [if_pos (by simp [hname]), lastValue_cons, ih]
        by_cases hkey : key = name
        · simp [hkey, hname]
        · simp [hkey]

end Entries

/-- A number as `numeric` keeps it, without an exponent. -/
def numeric (unscaled : Int) (scale : Nat) : Option Int → Json
  | none => .num unscaled scale none
  | some exponent =>
      if exponent ≤ scale then .num unscaled (scale - exponent).toNat none
      else .num (unscaled * 10 ^ (exponent - scale).toNat) 0 none

mutual

/-- What a `jsonb` column gives back of a document. -/
def stored : Json → Json
  | .num unscaled scale exponent => numeric unscaled scale exponent
  | .arr items => .arr (storedItems items)
  | .obj fields => .obj (storedFields fields)
  | .null => .null
  | .bool value => .bool value
  | .str value => .str value

def storedItems : List Json → List Json
  | [] => []
  | item :: rest => stored item :: storedItems rest

def storedFields : List (String × Json) → List (String × Json)
  | [] => []
  | (name, value) :: rest => insertEntry name (stored value) (storedFields rest)

end

theorem storedFields_eq (fields : List (String × Json)) :
    storedFields fields = entries (fields.map fun field => (field.1, stored field.2)) := by
  induction fields with
  | nil => simp [storedFields]
  | cons field rest ih => simp [storedFields, ih]

/-- A stored object keeps the last value of every key. -/
theorem lastValue_storedFields (key : String) (fields : List (String × Json)) :
    Json.lastValue key (storedFields fields) = (Json.lastValue key fields).map stored := by
  rw [storedFields_eq, lastValue_entries, lastValue_map]

theorem ordered_storedFields (fields : List (String × Json)) : Ordered (storedFields fields) := by
  rw [storedFields_eq]
  exact ordered_entries _

/-- A struct field that at most one key of an object names decodes from the
stored object as it does from the object. -/
theorem fieldValues_stored {name : String} {fields : List (String × Json)}
    (h : (fields.filter fun field => equalFold field.1 name).length ≤ 1) :
    (stored (.obj fields)).fieldValues name =
      ((Json.obj fields).fieldValues name).map fun values => values.map stored := by
  have hmap : (fields.map fun field => (field.1, stored field.2)).filter
      (fun field => equalFold field.1 name) =
        (fields.filter fun field => equalFold field.1 name).map
          fun field => (field.1, stored field.2) := by
    rw [List.filter_map]
    rfl
  have hlength : ((fields.map fun field => (field.1, stored field.2)).filter
      (fun entry => equalFold entry.1 name)).length ≤ 1 := by
    simpa [hmap] using h
  have hentries := filter_entries (p := fun key => equalFold key name) hlength
  rw [← storedFields_eq, hmap] at hentries
  simp only [stored, Json.fieldValues, hentries, Option.map_some, List.map_map]
  rfl

/-- Assign a value to a field of type `map[string]string`: `null` clears it, and
an object is merged into it. -/
def assignStringMap (current : List (String × String)) : Json → Option (List (String × String))
  | .null => some []
  | .obj fields => do
      let texts ← fields.mapM fun field => (Json.assignString "" field.2).map (field.1, ·)
      return entries (current ++ texts)
  | _ => none

/-- The text that decoding gives an entry of a `map[string]string`. -/
def entryText (value : Json) : String :=
  (Json.assignString "" value).getD ""

theorem mapM_texts {fields : List (String × Json)}
    (h : ∀ field ∈ fields, (Json.assignString "" field.2).isSome = true) :
    (fields.mapM fun field => (Json.assignString "" field.2).map (field.1, ·)) =
      some (fields.map fun field => (field.1, entryText field.2)) := by
  induction fields with
  | nil => rfl
  | cons field rest ih =>
      obtain ⟨text, htext⟩ := Option.isSome_iff_exists.mp (h field (List.mem_cons_self ..))
      have hrest := ih fun field hfield => h field (List.mem_cons_of_mem _ hfield)
      simp [List.mapM_cons, hrest, htext, entryText]

theorem isSome_of_mapM_texts {fields : List (String × Json)} {texts : List (String × String)}
    (h : (fields.mapM fun field => (Json.assignString "" field.2).map (field.1, ·)) = some texts) :
    ∀ field ∈ fields, (Json.assignString "" field.2).isSome = true := by
  intro field hfield
  obtain ⟨entry, -, hentry⟩ := (Json.exists_of_mapM h).1 field hfield
  obtain ⟨text, htext, -⟩ := Option.map_eq_some_iff.mp hentry
  simp [htext]

theorem stored_of_assignString {current : String} {value : Json}
    (h : (Json.assignString current value).isSome = true) : stored value = value := by
  cases value with
  | null => simp [stored]
  | str text => simp [stored]
  | bool _ | num _ _ _ | arr _ | obj _ => simp [Json.assignString] at h

/-- A map decodes from the stored object as it does from the object. -/
theorem assignStringMap_stored {value : Json} {texts : List (String × String)}
    (h : assignStringMap [] value = some texts) :
    assignStringMap [] (stored value) = some texts := by
  cases value with
  | null => simpa [stored] using h
  | bool _ | num _ _ _ | str _ | arr _ => simp [assignStringMap] at h
  | obj fields =>
      simp only [assignStringMap, Option.bind_eq_bind, Option.bind_eq_some_iff] at h
      obtain ⟨texts', htexts, hentries⟩ := h
      have hsome := isSome_of_mapM_texts htexts
      have hstored : storedFields fields = entries fields := by
        rw [storedFields_eq]
        congr 1
        conv_rhs => rw [← List.map_id fields]
        exact List.map_congr_left fun field hfield =>
          Prod.ext rfl (stored_of_assignString (hsome field hfield))
      rw [mapM_texts hsome] at htexts
      obtain rfl := Option.some.inj htexts
      simp only [List.nil_append, Option.pure_def, Option.some.injEq] at hentries
      subst hentries
      have hdecoded := mapM_texts fun field hfield => hsome field (mem_entries hfield)
      simp only [stored, assignStringMap, hstored, hdecoded, Option.bind_eq_bind, Option.bind_some,
        List.nil_append, map_entries, Option.pure_def, entries_of_ordered (ordered_entries _)]

example :
    stored (.obj [("price", .num 15 1 (some 2)), ("id", .null), ("price", .num 1 2 (some 0))]) =
    .obj [("id", .null), ("price", .num 1 2 none)] := rfl

end PriceScout.Library.StoredDocuments
