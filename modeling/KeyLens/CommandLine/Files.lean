import KeyLens.FileTree
import KeyLens.Json.Basic

/-!
# Files of a document

The files that a command works on are listed in a document, by their paths; what a command has
written is listed in the same way.
-/

namespace KeyLens.FileTree

/-- The tree of the files that a document lists, all changed at the same time. -/
def ofMembers (time : Nat) (members : List (String × Json)) : Except FileError FileTree :=
  members.foldlM (fun tree (path, value) =>
    tree.create ⟨path⟩ (.file (.text (value.string?.getD "")) time)) ⟨[], []⟩

/-- The texts that stand in a tree and not in an earlier one, by their paths. -/
def written (earlier later : FileTree) : List (String × Json) :=
  later.entries.filterMap fun (names, entry) =>
    match entry with
    | .file (.text text) _ =>
      if earlier.get? names = some entry then none else some ((pathOf names).text, .string text)
    | _ => none

end KeyLens.FileTree
