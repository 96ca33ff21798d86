/-! Marks of a node: yes-or-no facts about a call that a listing or its user has told. -/
namespace AttackSurface

inductive Mark where
  /-- Calls a library function that brings data in. -/
  | entry
  /-- Calls a library function that sends data out. -/
  | exit
  /-- Calls a risky system function. -/
  | dangerous
  /-- Was seen in an execution profile. -/
  | tested
  | defense
  | vulnerable
  deriving DecidableEq, Repr

namespace Mark

/-- All marks, in the order in which they are shown. -/
def all : List Mark := [.entry, .exit, .dangerous, .tested, .defense, .vulnerable]

def label : Mark → String
  | .entry => "entry"
  | .exit => "exit"
  | .dangerous => "dangerous"
  | .tested => "tested"
  | .defense => "defense"
  | .vulnerable => "vulnerable"

def ofLabel? (text : String) : Option Mark := all.find? fun mark => mark.label = text

@[simp] theorem ofLabel?_label (mark : Mark) : ofLabel? mark.label = some mark := by
  cases mark <;> decide

end Mark

structure Marks where
  entry : Bool := false
  exit : Bool := false
  dangerous : Bool := false
  tested : Bool := false
  defense : Bool := false
  vulnerable : Bool := false
  deriving DecidableEq, Repr, Inhabited

namespace Marks

def has (marks : Marks) : Mark → Bool
  | .entry => marks.entry
  | .exit => marks.exit
  | .dangerous => marks.dangerous
  | .tested => marks.tested
  | .defense => marks.defense
  | .vulnerable => marks.vulnerable

def ofFn (p : Mark → Bool) : Marks :=
  ⟨p .entry, p .exit, p .dangerous, p .tested, p .defense, p .vulnerable⟩

@[simp] theorem has_ofFn (p : Mark → Bool) (mark : Mark) : (ofFn p).has mark = p mark := by
  cases mark <;> rfl

theorem ext_has {a b : Marks} (h : ∀ mark, a.has mark = b.has mark) : a = b := by
  have := And.intro (h .entry) <| And.intro (h .exit) <| And.intro (h .dangerous) <|
    And.intro (h .tested) <| And.intro (h .defense) (h .vulnerable)
  cases a; cases b; simp_all [has]

@[simp] theorem has_empty (mark : Mark) : ({} : Marks).has mark = false := by cases mark <;> rfl

def toList (marks : Marks) : List Mark := Mark.all.filter marks.has

def union (a b : Marks) : Marks := ofFn fun mark => a.has mark || b.has mark

@[simp] theorem has_union (a b : Marks) (mark : Mark) :
    (a.union b).has mark = (a.has mark || b.has mark) := by
  simp [union]

end Marks

end AttackSurface
