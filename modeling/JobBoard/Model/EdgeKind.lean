import JobBoard.Model.Dictionary

/-!
# Edges

Four kinds of edges join an owner, a resume or a vacancy, to an entry of a dictionary. Each kind has
a join table of its own, in which every pair occurs at most once.
-/

namespace JobBoard

/-- What an edge can start from. -/
inductive Owner where
  | resume
  | vacancy
  deriving DecidableEq, Repr

/-- The name of the owner's table. -/
def Owner.text : Owner → String
  | .resume => "resume"
  | .vacancy => "vacancy"

/-- A kind of edge. -/
inductive EdgeKind where
  | resumeSkill
  | resumeSpecialization
  | vacancySkill
  | vacancyCity
  deriving DecidableEq, Repr

namespace EdgeKind

/-- All kinds, in the order in which their tables are created. -/
def all : List EdgeKind := [.resumeSkill, .resumeSpecialization, .vacancySkill, .vacancyCity]

/-- The owner's side. -/
def owner : EdgeKind → Owner
  | .resumeSkill | .resumeSpecialization => .resume
  | .vacancySkill | .vacancyCity => .vacancy

/-- The dictionary on the other side. -/
def dictionary : EdgeKind → Dictionary
  | .resumeSkill | .vacancySkill => .skill
  | .resumeSpecialization => .specialization
  | .vacancyCity => .city

/-- The name of the join table: the two sides joined by an underscore. -/
def text (k : EdgeKind) : String := k.owner.text ++ "_" ++ k.dictionary.text

/-- The kind of a given name. -/
def ofText? (s : String) : Option EdgeKind := all.find? (·.text == s)

/-- The column of the owner's id. -/
def ownerColumn (k : EdgeKind) : String := k.owner.text ++ "_id"

/-- The column of the entry's id. -/
def entryColumn (k : EdgeKind) : String := k.dictionary.text ++ "_id"

end EdgeKind

/-- One row of a join table. -/
structure Edge where
  owner : Int
  entry : Int
  deriving DecidableEq, Repr

/-- One value for each kind of edge. -/
structure PerEdgeKind (α : Type) where
  resumeSkill : α
  resumeSpecialization : α
  vacancySkill : α
  vacancyCity : α
  deriving DecidableEq, Repr

namespace PerEdgeKind

variable {α : Type}

/-- The value of one kind. -/
def get (p : PerEdgeKind α) : EdgeKind → α
  | .resumeSkill => p.resumeSkill
  | .resumeSpecialization => p.resumeSpecialization
  | .vacancySkill => p.vacancySkill
  | .vacancyCity => p.vacancyCity

/-- The values with one of them replaced. -/
def set (p : PerEdgeKind α) (k : EdgeKind) (a : α) : PerEdgeKind α :=
  match k with
  | .resumeSkill => { p with resumeSkill := a }
  | .resumeSpecialization => { p with resumeSpecialization := a }
  | .vacancySkill => { p with vacancySkill := a }
  | .vacancyCity => { p with vacancyCity := a }

@[simp] theorem get_set_self (p : PerEdgeKind α) (k : EdgeKind) (a : α) :
    (p.set k a).get k = a := by
  cases k <;> rfl

theorem get_set_of_ne (p : PerEdgeKind α) {k l : EdgeKind} (a : α) (h : l ≠ k) :
    (p.set k a).get l = p.get l := by
  cases k <;> cases l <;> simp_all [get, set]

end PerEdgeKind

end JobBoard
