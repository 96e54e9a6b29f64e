import KeyLens.Json.Binary64

/-!
# Documents

A document is a tree of named and listed values. Its members keep the order in which they were
first named, and no name occurs twice in an object that was read.
-/

namespace KeyLens

/-- A number as it is stored: whole if it was written as a whole number of sixty-four bits. -/
inductive Number where
  /-- A whole number. -/
  | whole (value : Int)
  /-- A number with a point or an exponent, or one that is too large to be stored whole. -/
  | binary (value : Binary64)
  deriving Repr, DecidableEq

/-- A document or a part of one. -/
inductive Json where
  /-- No value. -/
  | null
  /-- A truth value. -/
  | bool (value : Bool)
  /-- A number. -/
  | number (value : Number)
  /-- A text. -/
  | string (value : String)
  /-- Values in a row. -/
  | array (items : List Json)
  /-- Named values in their order. -/
  | object (members : List (String × Json))
  deriving Repr, Inhabited

namespace Json

/-- The members after `name` was given the value `value`: a new name is put at the end, and a known
one keeps its place. -/
def putMember (name : String) (value : Json) : List (String × Json) → List (String × Json)
  | [] => [(name, value)]
  | (other, old) :: rest =>
    if other = name then (name, value) :: rest else (other, old) :: putMember name value rest

/-- The object that a row of members in reading order makes. -/
def ofMembers (members : List (String × Json)) : List (String × Json) :=
  members.foldl (fun put (name, value) => putMember name value put) []

/-- The value of the first member of a name. -/
def member? (name : String) : List (String × Json) → Option Json
  | [] => none
  | (other, value) :: rest => if other = name then some value else member? name rest

/-- The value that a name has inside a value; only an object has any. -/
def get? (name : String) : Json → Option Json
  | object members => member? name members
  | _ => none

/-- The text that a value is. -/
def string? : Json → Option String
  | string value => some value
  | _ => none

/-- The whole number from zero up that a value is. -/
def nat? : Json → Option Nat
  | number (.whole value) => if 0 ≤ value then some value.toNat else none
  | _ => none

/-- A member that has just been put is found. -/
theorem member?_putMember_self (name : String) (value : Json) (members : List (String × Json)) :
    member? name (putMember name value members) = some value := by
  induction members with
  | nil => simp [putMember, member?]
  | cons head rest ih =>
    simp only [putMember]
    split
    · simp [member?]
    · next h => simp [member?, h, ih]

/-- Putting a member changes no other one. -/
theorem member?_putMember_of_ne {name other : String} (h : other ≠ name) (value : Json)
    (members : List (String × Json)) :
    member? other (putMember name value members) = member? other members := by
  induction members with
  | nil => simp [putMember, member?, Ne.symm h]
  | cons head rest ih =>
    simp only [putMember]
    split
    · next heq =>
      rw [← heq] at h ⊢
      simp [member?, Ne.symm h]
    · simp only [member?, ih]

end Json

end KeyLens
