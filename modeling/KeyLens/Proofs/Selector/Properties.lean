import KeyLens.Json.Lookup
import KeyLens.Proofs.Selector.Reading

/-!
# Selectors read documents

A selector is looked up in a document by its key, in which its names stand with dots between them.
This leads where its accesses would lead if the document were its parameter: from object to object
along its names, where a name that holds dots counts as the row of its pieces between them.
-/

namespace KeyLens

namespace Json

/-- A value is the property of a name among the members of an object: that of the first member of
the name. -/
def IsProperty (name : String) (value : Json) (members : List (String × Json)) : Prop :=
  ∃ before after, members = before ++ (name, value) :: after ∧ ∀ member ∈ before, member.1 ≠ name

/-- Accesses to properties, one after the other, lead from a value to another one. -/
inductive Leads : Json → List String → Json → Prop where
  /-- Without an access the value is reached. -/
  | here (value : Json) : Leads value [] value
  /-- Only an object has properties. -/
  | property {members : List (String × Json)} {name : String} {next value : Json}
    {names : List String} (hnext : IsProperty name next members) (hrest : Leads next names value) :
    Leads (.object members) (name :: names) value

/-- The member of a name is its property. -/
theorem member?_eq_some_iff {name : String} {value : Json} {members : List (String × Json)} :
    member? name members = some value ↔ IsProperty name value members := by
  induction members with
  | nil => simp [member?, IsProperty]
  | cons first rest ih =>
    obtain ⟨other, old⟩ := first
    rw [member?]
    constructor
    · intro h
      split at h
      · next hname => exact ⟨[], rest, by rw [hname, Option.some.inj h]; rfl, by simp⟩
      · next hname =>
        obtain ⟨before, after, rfl, hbefore⟩ := ih.mp h
        exact ⟨(other, old) :: before, after, rfl, List.forall_mem_cons.mpr ⟨hname, hbefore⟩⟩
    · rintro ⟨before, after, hmembers, hbefore⟩
      cases before with
      | nil =>
        obtain ⟨hfirst, -⟩ := List.cons.inj hmembers
        obtain ⟨rfl, rfl⟩ := Prod.mk.inj hfirst
        exact if_pos rfl
      | cons member before =>
        obtain ⟨rfl, hrest⟩ := List.cons.inj hmembers
        obtain ⟨hname, hbefore⟩ := List.forall_mem_cons.mp hbefore
        rw [if_neg hname]
        exact ih.mpr ⟨before, after, hrest, hbefore⟩

/-- A row of names leads where accesses to the properties of these names lead. -/
theorem descend?_eq_some_iff {start value : Json} {names : List String} :
    descend? start names = some value ↔ Leads start names value := by
  induction names generalizing start with
  | nil =>
    constructor
    · rintro ⟨⟩
      exact .here value
    · rintro ⟨⟩
      rfl
  | cons name rest ih =>
    rw [descend?, Option.bind_eq_some_iff]
    constructor
    · rintro ⟨next, hnext, hrest⟩
      cases start with
      | object members => exact .property (member?_eq_some_iff.mp hnext) (ih.mp hrest)
      | null | bool | number | string | array => cases hnext
    · rintro ⟨⟩
      next members next hnext hrest => exact ⟨next, member?_eq_some_iff.mpr hnext, ih.mpr hrest⟩

end Json

/-- The names of a key are the pieces between dots of the names of which it was made. -/
theorem Key.segments_ofSegments? {segments : List String} {key : Key}
    (h : ofSegments? segments = some key) :
    key.segments = segments.flatMap fun segment =>
      (List.splitOn '.' segment.toList).map String.ofList := by
  unfold ofSegments? at h
  split at h
  · cases h
  · next hne =>
    obtain rfl := Option.some.inj h
    rw [Key.segments, String.toList_ofList,
      Text.splitOn_intercalate_eq_flatMap (by simpa using hne),
      List.flatMap_map, List.map_flatMap]

namespace Selector

open KeyLens.Text

/-- The pieces between dots of the names that a selector reads. -/
def dotPieces (names : List (List Char)) : List String :=
  (names.flatMap (List.splitOn '.')).map String.ofList

/-- Names without dots are their own pieces. -/
theorem dotPieces_of_free {names : List (List Char)} (h : ∀ name ∈ names, '.' ∉ name) :
    dotPieces names = names.map String.ofList := by
  induction names with
  | nil => rfl
  | cons name rest ih =>
    obtain ⟨hname, hrest⟩ := List.forall_mem_cons.mp h
    rw [dotPieces, List.flatMap_cons, List.splitOn_eq_singleton hname, List.map_append, ← dotPieces,
      ih hrest]
    rfl

/-- The names of the key that is read are the pieces of the names that the selector spells. -/
theorem segments_of_read {text : String} {key : Key} (h : read .strict text = some key) :
    ∃ names, Spells text.toList names ∧ key.segments = dotPieces names := by
  rw [read_eq_segments?, Option.bind_eq_some_iff] at h
  obtain ⟨names, hnames, hkey⟩ := h
  refine ⟨names, segments?_strict_eq_some_iff.mp hnames, ?_⟩
  rw [Key.segments_ofSegments? hkey, List.flatMap_map, dotPieces, List.map_flatMap]
  simp only [String.toList_ofList]

/-- A text that is read strictly as a key spells a row of names, and the key is looked up in a
document as these names are accessed one after the other, each name that holds dots as its pieces
between them. -/
theorem lookup?_of_selector {text : String} {key : Key} (h : read .strict text = some key) :
    (∃ names, Spells text.toList names) ∧
      ∀ names, Spells text.toList names → ∀ root value,
        (Json.lookup? root key = some value ↔ Json.Leads (.object root) (dotPieces names) value) ∧
        ((∀ name ∈ names, '.' ∉ name) → (Json.lookup? root key = some value ↔
          Json.Leads (.object root) (names.map String.ofList) value)) := by
  obtain ⟨names, hspells, hsegments⟩ := segments_of_read h
  refine ⟨⟨names, hspells⟩, fun others hothers root value => ?_⟩
  obtain rfl := hspells.unique hothers
  have hlookup : Json.lookup? root key = some value ↔
      Json.Leads (.object root) (dotPieces names) value := by
    rw [Json.lookup?, hsegments, Json.descend?_eq_some_iff]
  exact ⟨hlookup, fun hfree => by rw [hlookup, dotPieces_of_free hfree]⟩

/-- A name that starts with a dot leads through the property of the empty name, and never to a
property whose own name has the dot. -/
theorem lookup?_of_name_with_dot :
    let text := "$ => $.a['.b']"
    let names := [['a'], ['.', 'b']]
    let nested : List (String × Json) := [("a", .object [("", .object [("b", .string "B")])])]
    let flat : List (String × Json) := [("a", .object [(".b", .string "B")])]
    read .strict text = some ⟨"a..b"⟩ ∧ Spells text.toList names ∧
      Json.lookup? nested ⟨"a..b"⟩ = some (.string "B") ∧
      ∀ value, Json.lookup? flat ⟨"a..b"⟩ ≠ some value := by
  intro text names nested flat
  have hread : read .strict text = some ⟨"a..b"⟩ := by decide +kernel
  have hspells : Spells text.toList names := segments?_strict_eq_some_iff.mp (by decide +kernel)
  have hpieces : dotPieces names = ["a", "", "b"] := by decide +kernel
  obtain ⟨-, hlookup⟩ := lookup?_of_selector hread
  refine ⟨hread, hspells, ?_, fun value hvalue => ?_⟩
  · have hproperty : ∀ name value, Json.IsProperty name value [(name, value)] :=
      fun name value => ⟨[], [], rfl, by simp⟩
    rw [(hlookup names hspells nested (.string "B")).1, hpieces]
    exact .property (hproperty _ _) (.property (hproperty _ _)
      (.property (hproperty _ _) (.here _)))
  · rw [(hlookup names hspells flat value).1, hpieces, ← Json.descend?_eq_some_iff] at hvalue
    cases hvalue

end Selector

end KeyLens
