import ModuleBuild.Numeric.Numeral

/-!
# Name supplies

A name supply counts upwards. It gives out its numbers one by one, either bare or as the end of a
name, so that no number is given out twice. A number that is too long for a numeral makes no name,
but is used up as well.
-/

namespace ModuleBuild

/-- A supply of numbers and names. -/
structure NameSupply where
  /-- The number that is given out next. -/
  next : Int := 0
deriving DecidableEq, Repr

namespace NameSupply

/-- The stem of names for which no other is asked. -/
def defaultStem : Text := "__"

/-- Gives out a number. -/
def fresh (s : NameSupply) : Int × NameSupply := (s.next, ⟨s.next + 1⟩)

/-- Gives out a name: the stem and a number, if the number has a numeral. -/
def freshName (stem : Text) (s : NameSupply) : Option Text × NameSupply :=
  ((Numeral.ofInt? s.next).map (stem ++ ·), ⟨s.next + 1⟩)

/-- What can be asked of a supply. -/
inductive Request where
  /-- The number that comes next, without taking it. -/
  | peek
  /-- A number. -/
  | number
  /-- A name with the given stem. -/
  | name (stem : Text)
deriving DecidableEq, Repr

/-- What a supply answers. -/
inductive Answer where
  /-- A number. -/
  | number (n : Int)
  /-- A name. -/
  | name (t : Text)
deriving DecidableEq, Repr

/-- Answers a request, if it can. -/
def answer (s : NameSupply) : Request → Option Answer × NameSupply
  | .peek => (some (.number s.next), s)
  | .number => (some (.number s.fresh.1), s.fresh.2)
  | .name stem =>
    let (name, s) := s.freshName stem
    (name.map .name, s)

/-- Answers requests one after the other, up to the first that it cannot answer. -/
def answerAll (s : NameSupply) : List Request → Option (List Answer) × NameSupply
  | [] => (some [], s)
  | r :: rs =>
    match s.answer r with
    | (some a, s) =>
      let (as, s) := s.answerAll rs
      (as.map (a :: ·), s)
    | (none, s) => (none, s)

end NameSupply

end ModuleBuild
