/-!
# Environments

An environment gives texts to names.  A variable that is present may have the
empty text, and that is not the same as being absent.
-/

namespace Scaffold

/-- The variables of a run with their values. -/
structure Environment where
  /-- Each variable that is present, with its value. -/
  bindings : List (String × String) := []
  deriving DecidableEq, Repr

namespace Environment

/-- The value of a variable that is present. -/
def get? (env : Environment) (name : String) : Option String :=
  (env.bindings.find? (·.1 = name)).map (·.2)

/-- The value of a variable, empty when it is absent. -/
def get (env : Environment) (name : String) : String := (env.get? name).getD ""

/-- The value of a variable, or a default when it is absent or empty. -/
def getOr (env : Environment) (name default : String) : String :=
  if env.get name = "" then default else env.get name

/-- An environment with a variable added, unless it is present. -/
def add (env : Environment) (name value : String) : Environment :=
  if (env.get? name).isSome then env else ⟨env.bindings ++ [(name, value)]⟩

/-- A variable that is present stays, and an absent one takes the value that is added for it. -/
theorem get?_add (env : Environment) (name value other : String) :
    (env.add name value).get? other =
      (env.get? other).or (if other = name then some value else none) := by
  unfold add
  split
  · rename_i h
    by_cases ho : other = name
    · subst ho
      obtain ⟨v, hv⟩ := Option.isSome_iff_exists.1 h
      simp [hv]
    · simp [ho]
  · rename_i h
    by_cases ho : other = name
    · subst ho
      have hnone : env.bindings.find? (·.1 = other) = none :=
        Option.map_eq_none_iff.1 (Option.not_isSome_iff_eq_none.1 h)
      simp [get?, List.find?_append, hnone]
    · have hn : ¬name = other := fun h => ho h.symm
      simp [get?, List.find?_append, ho, hn]

/-- An environment with variables added, unless they are present. -/
def addAll (env : Environment) (values : List (String × String)) : Environment :=
  values.foldl (fun env (name, value) => env.add name value) env

end Environment

end Scaffold
