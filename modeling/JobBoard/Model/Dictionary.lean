/-!
# Dictionaries

The three dictionaries of names that the board keeps. Each is a table of its own; an entry pairs a
name with the id that the store gave it.
-/

namespace JobBoard

/-- A dictionary of names. -/
inductive Dictionary where
  | skill
  | specialization
  | city
  deriving DecidableEq, Repr

namespace Dictionary

/-- All dictionaries, in the order in which they are created. -/
def all : List Dictionary := [.skill, .specialization, .city]

/-- The name of the dictionary, which is also the name of its table. -/
def text : Dictionary → String
  | .skill => "skill"
  | .specialization => "specialization"
  | .city => "city"

/-- The dictionary of a given name. -/
def ofText? (s : String) : Option Dictionary := all.find? (·.text == s)

end Dictionary

/-- One row of a dictionary. -/
structure Entry where
  id : Int
  name : String
  deriving DecidableEq, Repr

/-- One value for each dictionary. -/
structure PerDictionary (α : Type) where
  skill : α
  specialization : α
  city : α
  deriving DecidableEq, Repr

namespace PerDictionary

variable {α : Type}

/-- The value of one dictionary. -/
def get (p : PerDictionary α) : Dictionary → α
  | .skill => p.skill
  | .specialization => p.specialization
  | .city => p.city

/-- The values with one of them replaced. -/
def set (p : PerDictionary α) (d : Dictionary) (a : α) : PerDictionary α :=
  match d with
  | .skill => { p with skill := a }
  | .specialization => { p with specialization := a }
  | .city => { p with city := a }

@[simp] theorem get_set_self (p : PerDictionary α) (d : Dictionary) (a : α) :
    (p.set d a).get d = a := by
  cases d <;> rfl

theorem get_set_of_ne (p : PerDictionary α) {d e : Dictionary} (a : α) (h : e ≠ d) :
    (p.set d a).get e = p.get e := by
  cases d <;> cases e <;> simp_all [get, set]

end PerDictionary

end JobBoard
