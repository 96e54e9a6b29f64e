/-!
# Namespace candidates

The namespaces in which a key is looked for, in order of priority. The list is never empty,
holds no empty name and repeats none.
-/

namespace KeyLens

/-- The distinct non-empty names of a list, in the order of their first occurrences. -/
def distinctNames (names : List String) : List String :=
  (names.filter (· ≠ "")).eraseDups

/-- The distinct names of a list are its names that are not empty. -/
theorem mem_distinctNames {names : List String} {name : String} :
    name ∈ distinctNames names ↔ name ∈ names ∧ name ≠ "" := by
  simp [distinctNames]

/-- One more name is a distinct one unless it is empty or occurs before. -/
theorem distinctNames_concat (names : List String) (name : String) :
    distinctNames (names ++ [name]) =
      if name = "" ∨ name ∈ names then distinctNames names else distinctNames names ++ [name] := by
  rw [distinctNames, List.filter_append, List.eraseDups_append, ← distinctNames]
  by_cases hempty : name = ""
  · simp [hempty]
  · by_cases hmem : name ∈ names <;>
      simp [hempty, hmem, List.removeAll, List.eraseDups_cons]

/-- A non-empty list of distinct namespace names in order of priority. -/
structure Namespaces where
  /-- The names, the most important one first. -/
  toList : List String
  /-- There is a name. -/
  ne_nil : toList ≠ []
  deriving DecidableEq

namespace Namespaces

/-- The candidates that a list of raw names gives; none if no non-empty name is in it. -/
def ofList? (names : List String) : Option Namespaces :=
  if h : distinctNames names ≠ [] then some ⟨distinctNames names, h⟩ else none

/-- The one candidate `name`; none if it is empty. -/
def single? (name : String) : Option Namespaces :=
  ofList? [name]

/-- The candidate of the highest priority. -/
def first (namespaces : Namespaces) : String :=
  namespaces.toList.head namespaces.ne_nil

/-- The names with a comma and a space between neighbours. -/
def display (namespaces : Namespaces) : String :=
  ", ".intercalate namespaces.toList

/-- The candidates of a list are its distinct non-empty names. -/
theorem toList_of_ofList? {names : List String} {namespaces : Namespaces}
    (h : ofList? names = some namespaces) : namespaces.toList = distinctNames names := by
  unfold ofList? at h
  split at h
  · cases h; rfl
  · cases h

/-- A list gives no candidates exactly if all its names are empty. -/
theorem ofList?_eq_none_iff {names : List String} :
    ofList? names = none ↔ ∀ name ∈ names, name = "" := by
  have key : distinctNames names = [] ↔ ∀ name ∈ names, name = "" := by
    simp [List.eq_nil_iff_forall_not_mem, mem_distinctNames]
  unfold ofList?
  split
  · next h => simp only [reduceCtorEq, false_iff]; exact fun h' => h (key.2 h')
  · next h => simp only [true_iff]; exact key.1 (by simpa using h)

end Namespaces

end KeyLens
