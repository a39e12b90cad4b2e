import Scaffold.Settings

/-!
# Precedence of variables

Before settings are read, variable files are loaded into the environment one
after the other.  A file is not there, or it *fails* since it cannot be read or
is malformed, or it *defines* variables, one value for each name.  Loading goes
on up to the first file that fails.

A list of files *supplies* a value to a variable when one of them defines it,
none before that one does, and none before it fails.  `get?_loadFiles` says where
the value of a variable comes from after loading: from the environment when the
variable was present there, even with the empty text, and else from what the
files supply.  The induction is over the files, and one file is settled by
`get?_addAll` and `defines_iff`.

* `load_precedence`: the environment after loading and the result, for all
  environments, file trees and lists of files.
-/

namespace Scaffold

/-! ## Adding variables -/

namespace Environment

theorem get?_cons (name value other : String) (values : List (String × String)) :
    (Environment.mk ((name, value) :: values)).get? other =
      if other = name then some value else (Environment.mk values).get? other := by
  simp only [get?, List.find?_cons, eq_comm (a := other)]
  by_cases h : name = other <;> simp [h]

/-- Variables that are present stay, and the others take what is added for them first. -/
theorem get?_addAll (env : Environment) (values : List (String × String)) (x : String) :
    (env.addAll values).get? x = (env.get? x).or ((Environment.mk values).get? x) := by
  induction values generalizing env with
  | nil => simp [addAll, get?]
  | cons m values ih =>
    obtain ⟨name, value⟩ := m
    have hstep : env.addAll ((name, value) :: values) = (env.add name value).addAll values := rfl
    rw [hstep, ih, get?_add, get?_cons, Option.or_assoc]
    by_cases h : x = name <;> simp [h]

/-- Among bindings with one value for each name, a variable has the value that it is bound to. -/
theorem get?_eq_some_iff {values : List (String × String)} {x : String}
    (hone : ∀ v w, (x, v) ∈ values → (x, w) ∈ values → v = w) {v : String} :
    (Environment.mk values).get? x = some v ↔ (x, v) ∈ values := by
  induction values with
  | nil => simp [get?]
  | cons m values ih =>
    obtain ⟨name, value⟩ := m
    rw [get?_cons]
    by_cases h : x = name
    · subst h
      rw [if_pos rfl]
      constructor
      · intro hv
        cases hv
        exact List.mem_cons_self
      · intro hv
        rw [hone _ _ List.mem_cons_self hv]
    · rw [if_neg h, ih fun v w hv hw => hone v w (.tail _ hv) (.tail _ hw)]
      simp [h]

end Environment

/-- A variable file assigns one value to each name. -/
theorem EnvFile.read_functional {content : String} {values : List (String × String)}
    (h : read content = .ok values) {x v w : String} (hv : (x, v) ∈ values)
    (hw : (x, w) ∈ values) : v = w := by
  -- every entry is a name with the last value that the file assigns to it
  have hentry : ∃ assigned, ∀ y u, (y, u) ∈ values →
      u = String.ofList (valueOf assigned y.toList) := by
    rw [read] at h
    cases hstatements : statements ((unixLines content.toList).length + 1) []
        (unixLines content.toList) with
    | error fault =>
      rw [hstatements] at h
      cases h
    | ok assigned =>
      rw [hstatements] at h
      cases h
      refine ⟨assigned, fun y u hu => ?_⟩
      simp only [List.mem_map, List.mem_filter, finalValues] at hu
      obtain ⟨_, ⟨⟨name, -, rfl⟩, -⟩, heq⟩ := hu
      cases heq
      rw [String.toList_ofList]
  obtain ⟨assigned, hassigned⟩ := hentry
  rw [hassigned x v hv, hassigned x w hw]

namespace Settings

/-! ## What a file does -/

/-- A file is there and gives a variable a value. -/
def Defines (t : FileTree) (file x v : String) : Prop :=
  ∃ content values, t.read file = .ok content ∧ EnvFile.read content = .ok values ∧
    (x, v) ∈ values

/-- A file fails for a reason other than not being there. -/
inductive Fails (t : FileTree) (file : String) : SettingsFault → Prop where
  | unreadable {fault : FileFault} : t.read file = .error fault → fault.cause ≠ .missing →
      Fails t file (.file file fault)
  | malformed {content : String} {fault : EnvFile.Fault} : t.read file = .ok content →
      EnvFile.read content = .error fault → Fails t file (.content file fault)

/-- No file of a list fails. -/
def NoneFails (t : FileTree) (files : List String) : Prop :=
  ∀ file ∈ files, ∀ fault, ¬ Fails t file fault

/-- The first file of a list that fails, with its fault. -/
def FirstFails (t : FileTree) (files : List String) (file : String) (fault : SettingsFault) :
    Prop :=
  ∃ before after, files = before ++ file :: after ∧ NoneFails t before ∧ Fails t file fault

/-- The first file of a list that defines a variable gives it a value, and no file before it
fails. -/
def Supplies (t : FileTree) (files : List String) (x v : String) : Prop :=
  ∃ before file after, files = before ++ file :: after ∧ NoneFails t before ∧
    (∀ f ∈ before, ∀ w, ¬ Defines t f x w) ∧ Defines t file x v

variable {t : FileTree} {file : String} {files : List String} {x v : String}

theorem fileVariables_eq_error {fault : SettingsFault} :
    fileVariables t file = .error fault ↔ Fails t file fault := by
  rw [fileVariables]
  constructor
  · intro h
    cases hread : t.read file with
    | error cause =>
      rw [hread] at h
      dsimp only at h
      split at h
      · cases h
      · next hcause =>
        cases h
        exact .unreadable hread hcause
    | ok content =>
      rw [hread] at h
      dsimp only at h
      split at h
      · next hcontent =>
        cases h
        exact .malformed hread hcontent
      · cases h
  · intro h
    cases h with
    | unreadable hread hcause => simp [hread, hcause]
    | malformed hread hcontent => simp [hread, hcontent]

/-- A file that does not fail defines what its variables say. -/
theorem defines_iff {values : List (String × String)} (h : fileVariables t file = .ok values) :
    Defines t file x v ↔ (Environment.mk values).get? x = some v := by
  rw [fileVariables] at h
  cases hread : t.read file with
  | error cause =>
    rw [hread] at h
    dsimp only at h
    split at h
    · cases h
      simp [Defines, hread, Environment.get?]
    · cases h
  | ok content =>
    rw [hread] at h
    dsimp only at h
    split at h
    · cases h
    · next hcontent =>
      cases h
      rw [Environment.get?_eq_some_iff fun v w => EnvFile.read_functional hcontent]
      simp [Defines, hread, hcontent]

theorem Fails.not_defines {fault : SettingsFault} (h : Fails t file fault) :
    ¬ Defines t file x v := by
  rintro ⟨content, values, hread, hcontent, -⟩
  cases h with
  | unreadable hread' _ => simp [hread] at hread'
  | malformed hread' hcontent' =>
    rw [hread] at hread'
    cases hread'
    simp [hcontent] at hcontent'

/-- What is said about a file that fails begins with its name. -/
theorem Fails.message {fault : SettingsFault} (h : Fails t file fault) :
    ∃ reason, fault.message = file ++ ": " ++ reason := by
  cases h with
  | unreadable => exact ⟨_, rfl⟩
  | malformed => exact ⟨_, rfl⟩

/-! ## What a list of files does -/

theorem noneFails_cons :
    NoneFails t (file :: files) ↔ (∀ fault, ¬ Fails t file fault) ∧ NoneFails t files :=
  List.forall_mem_cons

theorem not_supplies_nil : ¬ Supplies t [] x v := by
  rintro ⟨before, file, after, h, -⟩
  simp at h

theorem supplies_cons : Supplies t (file :: files) x v ↔ Defines t file x v ∨
    (∀ fault, ¬ Fails t file fault) ∧ (∀ w, ¬ Defines t file x w) ∧ Supplies t files x v := by
  constructor
  · rintro ⟨before, f, after, hfiles, hfails, hbefore, hf⟩
    cases before with
    | nil =>
      cases hfiles
      exact .inl hf
    | cons g before =>
      cases hfiles
      rw [noneFails_cons] at hfails
      rw [List.forall_mem_cons] at hbefore
      exact .inr ⟨hfails.1, hbefore.1, before, f, after, rfl, hfails.2, hbefore.2, hf⟩
  · rintro (hf | ⟨hfile, hnot, before, f, after, rfl, hfails, hbefore, hf⟩)
    · exact ⟨[], file, files, rfl, nofun, nofun, hf⟩
    · exact ⟨file :: before, f, after, rfl, noneFails_cons.2 ⟨hfile, hfails⟩,
        List.forall_mem_cons.2 ⟨hnot, hbefore⟩, hf⟩

theorem firstFails_cons {f : String} {fault : SettingsFault} :
    FirstFails t (file :: files) f fault ↔ f = file ∧ Fails t file fault ∨
      (∀ fault, ¬ Fails t file fault) ∧ FirstFails t files f fault := by
  constructor
  · rintro ⟨before, after, hfiles, hfails, hf⟩
    cases before with
    | nil =>
      cases hfiles
      exact .inl ⟨rfl, hf⟩
    | cons g before =>
      cases hfiles
      rw [noneFails_cons] at hfails
      exact .inr ⟨hfails.1, before, after, rfl, hfails.2, hf⟩
  · rintro (⟨rfl, hf⟩ | ⟨hfile, before, after, rfl, hfails, hf⟩)
    · exact ⟨[], files, rfl, nofun, hf⟩
    · exact ⟨file :: before, after, rfl, noneFails_cons.2 ⟨hfile, hfails⟩, hf⟩

/-- After loading, a variable has the value it had, or else the one that the files supply. -/
theorem get?_loadFiles (env : Environment) : (loadFiles t env files).2.get? x = some v ↔
    env.get? x = some v ∨ env.get? x = none ∧ Supplies t files x v := by
  induction files generalizing env with
  | nil => simp [loadFiles, not_supplies_nil]
  | cons file files ih =>
    rw [loadFiles, supplies_cons]
    cases hfile : fileVariables t file with
    | error fault =>
      have hfails := fileVariables_eq_error.1 hfile
      have hnot : ¬ ∀ fault, ¬ Fails t file fault := fun h => h fault hfails
      simp [hfails.not_defines, hnot]
    | ok values =>
      have hnone : ∀ fault, ¬ Fails t file fault := fun fault h => by
        rw [fileVariables_eq_error.2 h] at hfile
        cases hfile
      simp only [ih, Environment.get?_addAll, defines_iff hfile, hnone, not_false_eq_true,
        implies_true, true_and]
      cases env.get? x with
      | some w => simp
      | none => cases hx : (Environment.mk values).get? x <;> simp

/-- Loading ends with the fault of the first file that fails. -/
theorem loadFiles_eq_some (env : Environment) {fault : SettingsFault} :
    (loadFiles t env files).1 = some fault ↔ ∃ file, FirstFails t files file fault := by
  induction files generalizing env with
  | nil => simp [loadFiles, FirstFails]
  | cons file files ih =>
    rw [loadFiles]
    simp only [firstFails_cons]
    cases hfile : fileVariables t file with
    | error cause =>
      simp [← fileVariables_eq_error, hfile]
    | ok values =>
      simp [ih, ← fileVariables_eq_error, hfile]

theorem loadFiles_eq_none (env : Environment) :
    (loadFiles t env files).1 = none ↔ NoneFails t files := by
  induction files generalizing env with
  | nil => simp [loadFiles, NoneFails]
  | cons file files ih =>
    rw [loadFiles, noneFails_cons]
    simp only [← fileVariables_eq_error]
    cases hfile : fileVariables t file with
    | error cause => simp
    | ok values => simp [ih]

/-! ## Settings -/

/-- Settings are read off the values of variables. -/
theorem ofEnvironment_congr {env env' : Environment} (h : ∀ x, env.get? x = env'.get? x) :
    ofEnvironment env = ofEnvironment env' := by
  have hget (x : String) : env.get x = env'.get x := by rw [Environment.get, Environment.get, h]
  have hgetOr (x default : String) : env.getOr x default = env'.getOr x default := by
    simp only [Environment.getOr, hget]
  have htidy : tidySwitch env = tidySwitch env' := by simp only [tidySwitch, hget]
  simp only [ofEnvironment, hget, hgetOr, htidy]

/-- After loading, the variables that were present have their values, even those with the empty
text.  Each of the others has the value that the files supply, and there are no more.  The first
file that fails ends the loading with an error that begins with its name.  Without one, the settings
are read off the environment after loading, and they depend on the values of its variables only. -/
theorem load_precedence (t : FileTree) (env : Environment) (names : List String) :
    let files := if names = [] then [".env"] else names
    let result := (load t env names).1
    let loaded := (load t env names).2
    (∀ x v, loaded.get? x = some v ↔
      env.get? x = some v ∨ env.get? x = none ∧ Supplies t files x v) ∧
    ((∃ file fault reason, FirstFails t files file fault ∧ result = .error fault ∧
        fault.message = file ++ ": " ++ reason) ∨
      NoneFails t files ∧ result = ofEnvironment loaded) ∧
    ∀ env₁ env₂ : Environment, (∀ x, env₁.get? x = env₂.get? x) →
      ofEnvironment env₁ = ofEnvironment env₂ := by
  intro files
  have hvalues (x v : String) := @get?_loadFiles t files x v env
  have hsome (fault : SettingsFault) := @loadFiles_eq_some t files env fault
  have hnone := @loadFiles_eq_none t files env
  rw [load, show filesToLoad names = files by rfl]
  cases hload : loadFiles t env files with
  | mk outcome loaded =>
    simp only [hload] at hvalues hsome hnone
    cases outcome with
    | some fault =>
      obtain ⟨file, hfirst⟩ := (hsome fault).1 rfl
      obtain ⟨_, _, -, -, hfails⟩ := id hfirst
      obtain ⟨reason, hreason⟩ := hfails.message
      exact ⟨hvalues, .inl ⟨file, fault, reason, hfirst, rfl, hreason⟩,
        fun _ _ => ofEnvironment_congr⟩
    | none =>
      exact ⟨hvalues, .inr ⟨hnone.1 rfl, rfl⟩, fun _ _ => ofEnvironment_congr⟩

end Settings

end Scaffold
