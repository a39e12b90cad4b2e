import Scaffold.Proofs.Environment.Precedence

/-!
# Loading again

Loading adds variables and takes none away.  What the files assign, up to the first
one that fails, is therefore present after loading, and a second pass over the same
files finds nothing to add and fails at the same file.

* `loadFiles_of_present`: files whose variables are all present change nothing, and
  end with the fault that they end with from any other environment.
* `load_idempotent`: loading twice is loading once, for the result and for the
  environment.
-/

namespace Scaffold

namespace Environment
variable {env : Environment} {x : String}

/-- A variable that is present is not added. -/
theorem add_of_present (h : (env.get? x).isSome) (value : String) : env.add x value = env :=
  if_pos h

/-- Variables that are all present are not added. -/
theorem addAll_of_present {values : List (String × String)}
    (h : ∀ m ∈ values, (env.get? m.1).isSome) : env.addAll values = env := by
  induction values with
  | nil => rfl
  | cons m values ih =>
    rw [List.forall_mem_cons] at h
    have hstep : env.addAll (m :: values) = (env.add m.1 m.2).addAll values := rfl
    rw [hstep, add_of_present h.1, ih h.2]

theorem isSome_get? {values : List (String × String)} {m : String × String} (h : m ∈ values) :
    ((Environment.mk values).get? m.1).isSome := by
  rw [get?, Option.isSome_map, List.find?_isSome]
  exact ⟨m, h, decide_eq_true rfl⟩

/-- The variables that are added are present afterwards. -/
theorem present_addAll {values : List (String × String)} {m : String × String} (h : m ∈ values) :
    ((env.addAll values).get? m.1).isSome := by
  rw [get?_addAll, Option.isSome_or, isSome_get? h, Bool.or_true]

end Environment

namespace Settings
variable {t : FileTree} {env : Environment} {files : List String} {x : String}

/-- Loading takes no variable away. -/
theorem present_loadFiles (h : (env.get? x).isSome) :
    ((loadFiles t env files).2.get? x).isSome := by
  obtain ⟨v, hv⟩ := Option.isSome_iff_exists.1 h
  rw [(get?_loadFiles env).2 (.inl hv)]
  rfl

/-- Files add nothing to an environment that has all variables of one they were loaded into. -/
theorem loadFiles_of_present {loaded : Environment}
    (h : ∀ x, ((loadFiles t env files).2.get? x).isSome → (loaded.get? x).isSome) :
    loadFiles t loaded files = ((loadFiles t env files).1, loaded) := by
  induction files generalizing env with
  | nil => rfl
  | cons file files ih =>
    rw [loadFiles] at h ⊢
    rw [loadFiles]
    cases hfile : fileVariables t file with
    | error fault => rfl
    | ok values =>
      simp only [hfile] at h
      -- what this file adds is still there when the last one is loaded
      have hvalues : ∀ m ∈ values, (loaded.get? m.1).isSome := fun m hm =>
        h m.1 (present_loadFiles (Environment.present_addAll hm))
      dsimp only
      rw [Environment.addAll_of_present hvalues]
      exact ih h

/-- The result of loading, from the fault of the files and the environment after them. -/
theorem load_eq (t : FileTree) (env : Environment) (names : List String) :
    load t env names =
      let loaded := loadFiles t env (filesToLoad names)
      (loaded.1.elim (ofEnvironment loaded.2) .error, loaded.2) := by
  rw [load]
  cases loadFiles t env (filesToLoad names) with
  | mk outcome loaded => cases outcome <;> rfl

/-- Loading the same files again gives the same settings or the same fault, and leaves the
environment as it is.  That holds wherever the first loading ended: at a file that fails, at a value
that cannot be used, or with settings. -/
theorem load_idempotent (t : FileTree) (env : Environment) (names : List String) :
    load t (load t env names).2 names = load t env names := by
  have hagain : loadFiles t (loadFiles t env (filesToLoad names)).2 (filesToLoad names)
      = loadFiles t env (filesToLoad names) := loadFiles_of_present fun x hx => hx
  rw [load_eq t env, load_eq]
  dsimp only
  rw [hagain]

end Settings

end Scaffold
