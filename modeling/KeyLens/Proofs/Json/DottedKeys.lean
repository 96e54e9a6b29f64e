import KeyLens.Proofs.Selector.Properties

/-!
# Dotted keys

A dot between two texts puts one look-up behind the other: the key of both leads where the second
one leads from the object that the first one leads to. Wherever dots stand in the texts, at their
ends or side by side, the names of the key are the names of the one and those of the other.
-/

namespace KeyLens

/-- A key has names. -/
theorem Key.segments_ne_nil (key : Key) : key.segments ≠ [] := by
  rw [Key.segments, ne_eq, List.map_eq_nil_iff]
  exact List.splitOn_ne_nil '.' key.text.toList

/-- The names of two texts with a dot between them are those of the one and of the other. -/
theorem Key.segments_dotted (front behind : String) :
    Key.segments ⟨front ++ "." ++ behind⟩ = Key.segments ⟨front⟩ ++ Key.segments ⟨behind⟩ := by
  have htext : (front ++ "." ++ behind).toList = front.toList ++ '.' :: behind.toList := by
    simp
  rw [Key.segments, htext, List.splitOn_append_cons_self, List.map_append]
  rfl

namespace Json

/-- From anything but an object no name leads on. -/
theorem descend?_eq_none {value : Json} {names : List String} (hnames : names ≠ [])
    (hvalue : ∀ members, value ≠ .object members) : descend? value names = none := by
  obtain ⟨name, rest, rfl⟩ := List.exists_cons_of_ne_nil hnames
  cases value with
  | object members => exact absurd rfl (hvalue members)
  | null | bool | number | string | array => rfl

variable {root members : List (String × Json)} {front behind : String}

/-- A text without a dot leads to the member of its name. -/
theorem lookup?_of_not_mem (h : '.' ∉ front.toList) : lookup? root ⟨front⟩ = member? front root := by
  rw [lookup?, Key.segments, List.splitOn_eq_singleton h, List.map_singleton, String.ofList_toList,
    descend?, get?]
  cases member? front root <;> rfl

/-- Behind a dot the look-up goes on where the text in front of the dot leads. -/
theorem lookup?_dotted (root : List (String × Json)) (front behind : String) :
    lookup? root ⟨front ++ "." ++ behind⟩ =
      (lookup? root ⟨front⟩).bind (descend? · (Key.segments ⟨behind⟩)) := by
  rw [lookup?, Key.segments_dotted, descend?_append]
  rfl

/-- Behind a dot the look-up goes on in the object to which the text in front of the dot leads. -/
theorem lookup?_dotted_of_object (h : lookup? root ⟨front⟩ = some (.object members)) :
    lookup? root ⟨front ++ "." ++ behind⟩ = lookup? members ⟨behind⟩ := by
  rw [lookup?_dotted, h]
  rfl

/-- Where the text in front of a dot leads to no object, nothing is found behind the dot. -/
theorem lookup?_dotted_eq_none (h : ∀ members, lookup? root ⟨front⟩ ≠ some (.object members)) :
    lookup? root ⟨front ++ "." ++ behind⟩ = none := by
  rw [lookup?_dotted]
  cases hvalue : lookup? root ⟨front⟩ with
  | none => rfl
  | some value =>
    refine descend?_eq_none (Key.segments_ne_nil _) fun members hobject => ?_
    exact h members (by rw [hvalue, hobject])

/-- A text without a dot leads to the member of its name. Two texts with a dot between them lead
where the second one leads from the object that the first one leads to, and nowhere if that is no
object. The names of a key made from texts are the pieces of the texts between dots. -/
theorem lookup?_composed (root : List (String × Json)) (hfront : front ≠ "") (hbehind : behind ≠ "")
    {names : List String} (hnames : names ≠ []) :
    (∃ first second whole, Key.ofText? front = some first ∧ Key.ofText? behind = some second ∧
      Key.ofText? (front ++ "." ++ behind) = some whole ∧
      ('.' ∉ front.toList → lookup? root first = member? front root) ∧
      (∀ members, lookup? root first = some (.object members) →
        lookup? root whole = lookup? members second) ∧
      ((∀ members, lookup? root first ≠ some (.object members)) → lookup? root whole = none)) ∧
    ∃ key, Key.ofSegments? names = some key ∧
      key.segments = names.flatMap fun name => (name.toList.splitOn '.').map String.ofList := by
  constructor
  · have hwhole : front ++ "." ++ behind ≠ "" := by simp [hfront]
    exact ⟨⟨front⟩, ⟨behind⟩, ⟨front ++ "." ++ behind⟩, if_neg hfront, if_neg hbehind,
      if_neg hwhole, lookup?_of_not_mem, fun members => lookup?_dotted_of_object,
      lookup?_dotted_eq_none⟩
  · refine ⟨_, if_neg hnames, ?_⟩
    exact Key.segments_ofSegments? (if_neg hnames)

/-- Dots at the ends of texts and side by side lead through members of the empty name. -/
theorem lookup?_composed_with_empty_names :
    let root : List (String × Json) :=
      [("", .object [("a", .object [("", .object [("b", .string "B")])])])]
    (".a" ≠ "" ∧ ".b" ≠ "" ∧ [".a", "", "b."] ≠ []) ∧
      lookup? root ⟨".a" ++ "." ++ ".b"⟩ = some (.string "B") ∧
      lookup? root ⟨".a..b" ++ "." ++ "c"⟩ = none ∧
      ∃ key, Key.ofSegments? [".a", "", "b."] = some key ∧
        key.segments = ["", "a", "", "b", ""] := by
  intro root
  have hnames : [".a", "", "b."] ≠ [] := by decide
  obtain ⟨⟨first, second, whole, hfirst, hsecond, hwhole, -, hobject, -⟩, hsegments⟩ :=
    @lookup?_composed ".a" ".b" root (by decide) (by decide) _ hnames
  obtain ⟨⟨start, last, all, hstart, hlast, hall, -, -, hnone⟩, -⟩ :=
    @lookup?_composed ".a..b" "c" root (by decide) (by decide) _ hnames
  cases hfirst
  cases hsecond
  cases hwhole
  cases hstart
  cases hlast
  cases hall
  refine ⟨by decide, ?_, hnone fun members hmembers => ?_, hsegments⟩
  · exact hobject [("", .object [("b", .string "B")])] rfl
  · have hfound : lookup? root ⟨".a..b"⟩ = some (.string "B") := rfl
    rw [hfound] at hmembers
    cases hmembers

end Json
end KeyLens
