import KeyLens.Proofs.Selector.Reading
import KeyLens.Site
import Mathlib.Data.List.Basic
import Mathlib.Data.List.Induction

/-!
# Well-formed keys and candidates

The candidates that a row of names gives are the names of the row without the empty ones, each where
it first occurs. A key that a text spells is not empty, and one that is made of names is empty for a
single empty name only. What a site asks for is well-formed wherever its key and its candidates come
from: the key has characters, and the candidates are names that do not repeat.
-/

namespace KeyLens

/-! ### Candidates -/

/-- The names of a row that are not empty, each one once, in the order in which they first occur in
the row. -/
structure AreFirstsOf (row names : List String) : Prop where
  /-- The names are those of the row that are not empty. -/
  mem_iff : ∀ name, name ∈ names ↔ name ∈ row ∧ name ≠ ""
  /-- Of two names the one that occurs first in the row comes first. -/
  inOrder : names.Pairwise fun name later => row.idxOf name < row.idxOf later

/-- Names of candidates: there is one, none repeats and none is empty. -/
structure WellFormedNames (names : List String) : Prop where
  /-- There is a name. -/
  ne_nil : names ≠ []
  /-- No name repeats. -/
  nodup : names.Nodup
  /-- No name is empty. -/
  not_mem_empty : "" ∉ names

namespace AreFirstsOf

variable {row names others : List String}

/-- No first occurrence repeats. -/
theorem nodup (h : AreFirstsOf row names) : names.Nodup :=
  h.inOrder.imp fun hlt heq => absurd (heq ▸ hlt) (Nat.lt_irrefl _)

/-- A row has one list of first occurrences. -/
theorem unique (h : AreFirstsOf row names) (hothers : AreFirstsOf row others) : names = others := by
  have hperm : names.Perm others := by
    rw [List.perm_ext_iff_of_nodup h.nodup hothers.nodup]
    intro name
    rw [h.mem_iff, hothers.mem_iff]
  refine List.Perm.eq_of_pairwise (fun name later _ _ hlt hgt => ?_) h.inOrder hothers.inOrder hperm
  exact absurd (hlt.trans hgt) (Nat.lt_irrefl _)

/-- First occurrences are their own first occurrences. -/
theorem self (h : AreFirstsOf row names) : AreFirstsOf names names where
  mem_iff name := ⟨fun hname => ⟨hname, ((h.mem_iff name).mp hname).2⟩, And.left⟩
  inOrder := by
    rw [List.pairwise_iff_getElem]
    intro i j hi hj hlt
    rwa [h.nodup.idxOf_getElem, h.nodup.idxOf_getElem]

end AreFirstsOf

/-- The distinct names of a row stand in the order in which they first occur in it. -/
theorem pairwise_distinctNames (row : List String) :
    (distinctNames row).Pairwise fun name later => row.idxOf name < row.idxOf later := by
  induction row using List.reverseRecOn with
  | nil => exact List.Pairwise.nil
  | append_singleton row last ih =>
    have hbefore {name : String} (hname : name ∈ distinctNames row) :
        (row ++ [last]).idxOf name = row.idxOf name ∧ row.idxOf name < row.length := by
      have hmem := (mem_distinctNames.mp hname).1
      exact ⟨List.idxOf_append_of_mem hmem, List.idxOf_lt_length_of_mem hmem⟩
    have hfront : (distinctNames row).Pairwise fun name later =>
        (row ++ [last]).idxOf name < (row ++ [last]).idxOf later := by
      refine ih.imp_of_mem fun {name later} hname hlater hlt => ?_
      rwa [(hbefore hname).1, (hbefore hlater).1]
    rw [distinctNames_concat]
    split
    · exact hfront
    · next hnew =>
      refine List.pairwise_append.mpr ⟨hfront, List.pairwise_singleton _ _, ?_⟩
      intro name hname later hlater
      rw [List.mem_singleton.mp hlater, (hbefore hname).1,
        List.idxOf_append_of_notMem (not_or.mp hnew).2, List.idxOf_cons_self]
      exact (hbefore hname).2

/-- The distinct names of a row are its first occurrences. -/
theorem areFirstsOf_distinctNames (row : List String) : AreFirstsOf row (distinctNames row) where
  mem_iff _ := mem_distinctNames
  inOrder := pairwise_distinctNames row

namespace Namespaces

variable {row : List String} {namespaces : Namespaces}

/-- A row gives the candidates that are its first occurrences. -/
theorem ofList?_eq_some_iff : ofList? row = some namespaces ↔ AreFirstsOf row namespaces.toList := by
  constructor
  · intro h
    rw [toList_of_ofList? h]
    exact areFirstsOf_distinctNames row
  · intro h
    obtain ⟨names, hne⟩ := namespaces
    obtain rfl : names = distinctNames row := h.unique (areFirstsOf_distinctNames row)
    exact dif_pos hne

/-- Candidates that a row of names gives are given by their own names too. -/
theorem ofList?_toList (h : ofList? row = some namespaces) :
    ofList? namespaces.toList = some namespaces :=
  ofList?_eq_some_iff.mpr (ofList?_eq_some_iff.mp h).self

/-- Candidates that a row of names gives are well-formed. -/
theorem wellFormed_of_ofList? (h : ofList? row = some namespaces) :
    WellFormedNames namespaces.toList where
  ne_nil := namespaces.ne_nil
  nodup := (ofList?_eq_some_iff.mp h).nodup
  not_mem_empty hempty := (((ofList?_eq_some_iff.mp h).mem_iff "").mp hempty).2 rfl

end Namespaces

/-! ### Keys -/

/-- A key that is made of names is empty for a single empty name only. -/
theorem Key.text_eq_empty_iff {names : List String} {key : Key}
    (h : ofSegments? names = some key) : key.text = "" ↔ names = [""] := by
  unfold ofSegments? at h
  split at h
  · cases h
  · next hne =>
    cases h
    have hpieces : names.map String.toList = [[]] ↔ names = [""] := by
      rw [List.map_eq_singleton_iff]
      simp
    rw [String.ofList_eq_empty_iff, Text.intercalate_eq_nil_iff, hpieces, List.map_eq_nil_iff]
    simp [hne]

namespace Selector

variable {tolerance : Tolerance} {parameter text : List Char} {names : List (List Char)}

/-- The name in an access is not empty. -/
theorem Access.name_ne_nil {access name : List Char} (h : Access access name) : name ≠ [] := by
  cases h with
  | dot hname => exact hname
  | bracket _ _ hname => exact hname

/-- The names in a chain are not empty. -/
theorem Chain.name_ne_nil {chain name : List Char} (h : Chain chain names) (hname : name ∈ names) :
    name ≠ [] := by
  induction h with
  | nil => cases hname
  | cons _ haccess _ ih =>
    rcases List.mem_cons.mp hname with rfl | hlater
    · exact haccess.name_ne_nil
    · exact ih hlater

/-- The names that an expression reads are some, and none is empty. -/
theorem names_of_path? (h : path? tolerance parameter text = some names) :
    names ≠ [] ∧ ∀ name ∈ names, name ≠ [] := by
  obtain ⟨behind, -, h⟩ := Option.bind_eq_some_iff.mp h
  obtain ⟨⟨found, rest⟩, hmembers, h⟩ := Option.bind_eq_some_iff.mp h
  obtain ⟨chain, -, -, hchain, -⟩ := members?_eq_some_iff.mp hmembers
  simp only at h
  split at h
  · cases h
  · next hsome =>
    cases h
    exact ⟨fun hnil => hsome (Or.inl hnil), fun name => hchain.name_ne_nil⟩

/-- A key that is read is not empty. -/
theorem text_ne_empty_of_read {text : String} {key : Key} (h : read tolerance text = some key) :
    key.text ≠ "" := by
  rw [read_eq_segments?] at h
  obtain ⟨names, hnames, hkey⟩ := Option.bind_eq_some_iff.mp h
  obtain ⟨⟨parameter, body⟩, -, hbody⟩ := Option.bind_eq_some_iff.mp hnames
  obtain ⟨expression, -, hpath⟩ := Option.bind_eq_some_iff.mp hbody
  rw [ne_eq, Key.text_eq_empty_iff hkey, List.map_eq_singleton_iff]
  rintro ⟨name, rfl, hname⟩
  exact (names_of_path? hpath).2 name List.mem_cons_self (String.ofList_eq_empty_iff.mp hname)

end Selector

/-! ### What sites ask for -/

namespace Site

variable {preceding fallback : String} {tolerance : Selector.Tolerance} {site : Site}
  {info : CallInfo}

/-- A site asks for a key with characters. -/
theorem key_ne_empty_of_info? (h : site.info? preceding fallback tolerance = some info) :
    info.key.text ≠ "" := by
  obtain ⟨⟨key, own⟩, hkey, hinfo⟩ := Option.bind_eq_some_iff.mp h
  obtain ⟨namespaces, -, rfl⟩ := Option.map_eq_some_iff.mp hinfo
  cases site with
  | call first options span =>
    obtain ⟨text, -, hread⟩ := Option.bind_eq_some_iff.mp hkey
    obtain ⟨found, hfound, hpair⟩ := Option.map_eq_some_iff.mp hread
    cases hpair
    exact Selector.text_ne_empty_of_read hfound
  | tag rawKey span =>
    obtain ⟨raw, -, hread⟩ := Option.bind_eq_some_iff.mp hkey
    obtain ⟨found, hfound, hpair⟩ := Option.map_eq_some_iff.mp hread
    cases hpair
    obtain ⟨hne, htext⟩ := Key.ofText?_eq_some_iff.mp hfound
    rwa [htext]

/-- The candidates that a declaration names are given by a row of names. -/
theorem exists_ofList?_of_ambient? {namespaces : Namespaces}
    (h : Declaration.ambient? preceding = some namespaces) :
    ∃ names, Namespaces.ofList? names = some namespaces := by
  simp only [Declaration.ambient?, Option.orElse_eq_orElse, Option.orElse_eq_or,
    Option.or_eq_some_iff] at h
  rcases h with h | ⟨-, h⟩
  · obtain ⟨text, -, harguments⟩ := Option.bind_eq_some_iff.mp h
    unfold Declaration.ofArguments? at harguments
    split at harguments
    · exact ⟨_, harguments⟩
    · obtain ⟨name, -, hname⟩ := Option.bind_eq_some_iff.mp harguments
      exact ⟨_, hname⟩
  · obtain ⟨text, -, hcandidates⟩ := Option.bind_eq_some_iff.mp h
    exact ⟨_, hcandidates⟩

/-- The candidates of a site are given by a row of names. -/
theorem exists_ofList?_of_info? (h : site.info? preceding fallback tolerance = some info) :
    ∃ names, Namespaces.ofList? names = some info.namespaces := by
  obtain ⟨⟨key, own⟩, -, hinfo⟩ := Option.bind_eq_some_iff.mp h
  obtain ⟨namespaces, hfound, rfl⟩ := Option.map_eq_some_iff.mp hinfo
  simp only [Option.orElse_eq_orElse, Option.orElse_eq_or, Option.or_eq_some_iff] at hfound
  rcases hfound with hown | ⟨-, hambient | ⟨-, hfallback⟩⟩
  · obtain ⟨name, -, hname⟩ := Option.bind_eq_some_iff.mp hown
    exact ⟨[name], hname⟩
  · exact exists_ofList?_of_ambient? hambient
  · exact ⟨[fallback], hfallback⟩

/-- The key that a text spells is the text, which is not empty, and the key that is made of names
is empty for a single empty name only. Rows of names and single names give their first occurrences as
candidates, and candidates give themselves. What a site asks for below any text and with any
fallback, read strictly or not, is a key with characters and well-formed candidates. -/
theorem wellFormed_of_info? (text name preceding fallback : String) (names row : List String)
    (tolerance : Selector.Tolerance) (site : Site) :
    (∀ key, Key.ofText? text = some key ↔ text ≠ "" ∧ key.text = text) ∧
    (∀ key, Key.ofSegments? names = some key → (key.text ≠ "" ↔ names ≠ [""])) ∧
    (∀ namespaces, Namespaces.ofList? row = some namespaces ↔
      AreFirstsOf row namespaces.toList) ∧
    (∀ namespaces, Namespaces.single? name = some namespaces ↔
      AreFirstsOf [name] namespaces.toList) ∧
    (∀ namespaces, Namespaces.ofList? row = some namespaces →
      WellFormedNames namespaces.toList ∧
        Namespaces.ofList? namespaces.toList = some namespaces) ∧
    ∀ info, site.info? preceding fallback tolerance = some info →
      info.key.text ≠ "" ∧ WellFormedNames info.namespaces.toList := by
  refine ⟨fun _ => Key.ofText?_eq_some_iff, fun key hkey => ?_,
    fun _ => Namespaces.ofList?_eq_some_iff, fun _ => Namespaces.ofList?_eq_some_iff,
    fun namespaces hrow => ?_, fun info hinfo => ?_⟩
  · exact not_congr (Key.text_eq_empty_iff hkey)
  · exact ⟨Namespaces.wellFormed_of_ofList? hrow, Namespaces.ofList?_toList hrow⟩
  · obtain ⟨names, hnames⟩ := exists_ofList?_of_info? hinfo
    exact ⟨key_ne_empty_of_info? hinfo, Namespaces.wellFormed_of_ofList? hnames⟩

/-- A call below a declaration that repeats a name, and whose selector goes on in a method, asks for
the names of the declaration once each. -/
theorem wellFormed_of_info?_repeated_name :
    let preceding := "const { t } = useTranslation(['forms', 'common', 'forms']);"
    let site : Site := .call (some "$ => $['a'].b.trim()") none ⟨60, 84⟩
    let row := ["forms", "", "common", "forms"]
    ∃ info, site.info? preceding "common" .lenient = some info ∧
      info.key.text = "a.b.trim" ∧ info.namespaces.toList = ["forms", "common"] ∧
      WellFormedNames info.namespaces.toList ∧
      Namespaces.ofList? row = some info.namespaces ∧
      Namespaces.ofList? ["forms", "common"] = some info.namespaces ∧
      Key.ofSegments? ["", ""] = some ⟨"."⟩ ∧ "." ≠ "" := by
  intro preceding site row
  have hsome : (site.info? preceding "common" .lenient).isSome = true := by decide +kernel
  obtain ⟨info, hinfo⟩ := Option.isSome_iff_exists.mp hsome
  have hshown : (site.info? preceding "common" .lenient).map (fun info =>
      (info.key.text, info.namespaces.toList)) = some ("a.b.trim", ["forms", "common"]) := by
    decide +kernel
  rw [hinfo, Option.map_some, Option.some.injEq, Prod.mk.injEq] at hshown
  obtain ⟨-, hsegments, hrow, -, hgiven, hasked⟩ :=
    wellFormed_of_info? "a" "forms" preceding "common" ["", ""] row .lenient site
  have hkey : Key.ofSegments? ["", ""] = some ⟨"."⟩ := by decide +kernel
  have hnames : Namespaces.ofList? row = some info.namespaces := by
    rw [hrow, hshown.2]
    exact ⟨fun name => by grind, by decide⟩
  refine ⟨info, hinfo, hshown.1, hshown.2, (hasked info hinfo).2, hnames, ?_, hkey, ?_⟩
  · rw [← hshown.2]
    exact (hgiven _ hnames).2
  · exact (hsegments _ hkey).mpr (by decide)

/-- A single empty name makes an empty key. -/
theorem ofSegments?_single_empty_name : Key.ofSegments? [""] = some ⟨""⟩ := rfl

end Site
end KeyLens
