import PropertyFilter.Command.Running
import PropertyFilter.Proofs.Disk.Saving
import PropertyFilter.Proofs.Settings.Assignments
import PropertyFilter.Proofs.Settings.File

/-!
# Commands about the settings, one after another

What a command makes of the settings that are kept is said without any file and without reading
(`Makes`): an assignment puts what its text says in the place of one setting, a file that is begun
anew holds no setting, and a command that fails, as `Fails` has it, makes nothing of them. Computed
with what is read of texts, this is `keep` (`makes_iff`).

`Keeps` says that a disk keeps settings, or that it has no file for them. One command takes a disk
that keeps settings to one that keeps what the command makes of them, or fails and leaves the disk
as it is (`Keeps.run`). Hence what is loaded after any number of commands comes of folding them, and
each of them has done what it says and nothing else (`load_runAll_and_isExact`).
-/

set_option autoImplicit false

namespace PropertyFilter

namespace SettingsCommand

/-- How a command may fail, given whether there is a file with settings. -/
inductive Fails (path : String) (isThere : Bool) : SettingsCommand → SettingsFault → Prop
  | init (hthere : isThere = true) : Fails path isThere (.init false) (.alreadyThere path)
  | key {key text : String} (hkey : ∀ k : Setting, k.key ≠ key) :
      Fails path isThere (.set key text) (.unknownKey key)
  | text {k : Setting} {text : String} {fault : SettingsFault} (h : k.Refuses text fault) :
      Fails path isThere (.set k.key text) fault

/-- What is kept after a command, given what is kept before it, if there is a file. -/
inductive Makes (path : String) (kept? : Option Settings) :
    SettingsCommand → Option Settings → Prop
  | show : Makes path kept? .show kept?
  | path : Makes path kept? .path kept?
  | begun {force : Bool} (h : kept? = none ∨ force = true) :
      Makes path kept? (.init force) (some .unset)
  | assigned {k : Setting} {text : String} {v : k.Content} (h : k.Says text v) :
      Makes path kept? (.set k.key text) (some (k.put (kept?.getD .unset) v))
  | failed {command : SettingsCommand} {fault : SettingsFault}
      (h : command.Fails path kept?.isSome fault) : Makes path kept? command kept?

/-- What is kept after commands, one after another. -/
inductive MakeAll (path : String) :
    Option Settings → List (Flags × SettingsCommand) → Option Settings → Prop
  | none (kept? : Option Settings) : MakeAll path kept? [] kept?
  | more {kept? next? last? : Option Settings} {flags : Flags} {command : SettingsCommand}
      {commands : List (Flags × SettingsCommand)} (h : command.Makes path kept? next?)
      (hrest : MakeAll path next? commands last?) :
      MakeAll path kept? ((flags, command) :: commands) last?

/-- What a command makes of the settings that are kept with what is read of its text, or why it
fails. -/
def change (path : String) (kept? : Option Settings) :
    SettingsCommand → Except SettingsFault (Option Settings)
  | .show => .ok kept?
  | .path => .ok kept?
  | .init force =>
    if kept?.isSome && !force then .error (.alreadyThere path) else .ok (some .unset)
  | .set key text =>
    match Setting.ofKey? key with
    | none => .error (.unknownKey key)
    | some k => (k.read text).map fun v ↦ some (k.put (kept?.getD .unset) v)

/-- What is kept after a command, whether it fails or not. -/
def keep (path : String) (kept? : Option Settings) (command : SettingsCommand) : Option Settings :=
  match command.change path kept? with
  | .ok next? => next?
  | .error _ => kept?

/-- What comes of a command with some flags, and the disk after it. -/
def run (command : SettingsCommand) (flags : Flags) (env : Environment) (disk : Disk) :
    Outcome × Disk :=
  Invocation.run ⟨flags, .settings command⟩ env disk []

theorem run_init (force : Bool) (flags : Flags) (env : Environment) (disk : Disk) :
    (init force).run flags env disk =
      let result := Command.runInit (Context.make flags env .unset) env disk force
      (.ofExcept (result.1.mapError .settings), result.2) := by
  simp only [run, Invocation.run, Command.runSettings]

theorem run_set (key text : String) (flags : Flags) (env : Environment) (disk : Disk) :
    (set key text).run flags env disk =
      let result := Command.runSet (Context.make flags env .unset) env disk key text
      (.ofExcept (result.1.mapError .settings), result.2) := by
  simp only [run, Invocation.run, Command.runSettings]

theorem change_eq_error_iff (path : String) (kept? : Option Settings) (command : SettingsCommand)
    (fault : SettingsFault) :
    command.change path kept? = .error fault ↔ command.Fails path kept?.isSome fault := by
  constructor
  · intro h
    cases command with
    | «show» => cases h
    | path => cases h
    | init force =>
      simp only [change] at h
      split at h
      · next hagain =>
        rw [Bool.and_eq_true, Bool.not_eq_true'] at hagain
        cases h
        rw [hagain.2]
        exact .init hagain.1
      · cases h
    | set key text =>
      simp only [change] at h
      split at h
      · next hkey =>
        cases h
        exact .key ((Setting.ofKey?_eq_none_iff key).mp hkey)
      · next k hkey =>
        obtain rfl := Setting.key_of_ofKey? hkey
        cases hread : k.read text with
        | ok v =>
          rw [hread] at h
          cases h
        | error fault' =>
          rw [hread] at h
          cases h
          exact .text (Setting.read_eq_error_iff.mp hread)
  · rintro (hthere | hkey | hrefuses)
    · simp [change, hthere]
    · simp [change, (Setting.ofKey?_eq_none_iff _).mpr hkey]
    · simp [change, Setting.ofKey?_key, Setting.read_eq_error hrefuses, Except.map]

section Keep

variable {path : String} {kept? next? : Option Settings} {key text : String}

theorem change_set_eq_ok (h : (set key text).change path kept? = .ok next?) :
    ∃ (k : Setting) (v : k.Content), k.key = key ∧ k.Says text v ∧
      next? = some (k.put (kept?.getD .unset) v) := by
  simp only [change] at h
  split at h
  · cases h
  · next k hkey =>
    cases hread : k.read text with
    | error fault =>
      rw [hread] at h
      cases h
    | ok v =>
      rw [hread] at h
      cases h
      exact ⟨k, v, Setting.key_of_ofKey? hkey, Setting.read_eq_ok_iff.mp hread, rfl⟩

theorem change_init_eq_ok {force : Bool} (h : (init force).change path kept? = .ok next?) :
    (kept? = none ∨ force = true) ∧ next? = some .unset := by
  simp only [change] at h
  split at h
  · cases h
  · next hagain =>
    cases h
    refine ⟨?_, rfl⟩
    cases kept? with
    | none => exact .inl rfl
    | some s => exact .inr (by simpa using hagain)

/-- What is kept after a command is what it makes of what was kept. -/
theorem makes_iff (command : SettingsCommand) :
    command.Makes path kept? next? ↔ command.keep path kept? = next? := by
  constructor
  · intro h
    cases h with
    | «show» => rfl
    | path => rfl
    | @begun force h =>
      have hchange : (init force).change path kept? = .ok (some .unset) := by
        rcases h with rfl | rfl <;> simp [change]
      rw [keep, hchange]
    | @assigned k text v h =>
      have hchange : (set k.key text).change path kept? =
          .ok (some (k.put (kept?.getD .unset) v)) := by
        simp [change, Setting.ofKey?_key, Setting.read_eq_ok h, Except.map]
      rw [keep, hchange]
    | @failed _ fault h =>
      rw [keep, (change_eq_error_iff path kept? command fault).mpr h]
  · rintro rfl
    unfold keep
    split
    · next next? hchange =>
      cases command with
      | «show» =>
        cases hchange
        exact .show
      | path =>
        cases hchange
        exact .path
      | init force =>
        obtain ⟨hbegun, rfl⟩ := change_init_eq_ok hchange
        exact .begun hbegun
      | set key text =>
        obtain ⟨k, v, rfl, hsays, rfl⟩ := change_set_eq_ok hchange
        exact .assigned hsays
    · next fault hchange =>
      exact .failed ((change_eq_error_iff path kept? command fault).mp hchange)

/-- What is kept after commands comes of folding them. -/
theorem makeAll_iff (commands : List (Flags × SettingsCommand)) {last? : Option Settings} :
    MakeAll path kept? commands last? ↔
      commands.foldl (fun kept? command ↦ command.2.keep path kept?) kept? = last? := by
  induction commands generalizing kept? with
  | nil =>
    constructor
    · rintro ⟨⟩
      rfl
    · rintro rfl
      exact .none kept?
  | cons command commands ih =>
    obtain ⟨flags, command⟩ := command
    rw [List.foldl_cons, ← ih]
    constructor
    · rintro (_ | ⟨h, hrest⟩)
      rwa [(makes_iff command).mp h]
    · exact .more ((makes_iff command).mpr rfl)

end Keep

end SettingsCommand

/-- The disk after commands about the settings, one after another. -/
def Environment.runAll (env : Environment) (disk : Disk)
    (commands : List (Flags × SettingsCommand)) : Disk :=
  commands.foldl (fun disk command ↦ (command.2.run command.1 env disk).2) disk

/-- The disk keeps settings in a file under the path, or there is no file. -/
structure Keeps (env : Environment) (path : String) (disk : Disk) (kept? : Option Settings) :
    Prop where
  named : env.settingsPath = .ok path
  loads : env.load disk = .ok (kept?.getD .unset)
  contains : disk.contains path = kept?.isSome
  canSave : disk.CanSave path

theorem Environment.load_of_read? {env : Environment} {path text : String} {disk : Disk}
    {s : Settings} (hpath : env.settingsPath = .ok path) (hthere : disk.contains path = true)
    (htext : disk.read? path = some text) (hread : Settings.read? text = some s) :
    env.load disk = .ok s := by
  simp [Environment.load, hpath, hthere, htext, hread, bind, Except.bind, pure, Except.pure]

namespace Keeps

variable {env : Environment} {path : String} {disk : Disk} {kept? : Option Settings}

/-- Saving a text that is read as settings keeps these. -/
theorem exists_save (h : Keeps env path disk kept?) {text : String} {s : Settings}
    (htext : Settings.read? text = some s) :
    ∃ after, disk.save path text = (.ok (), after) ∧ Keeps env path after (some s) := by
  obtain ⟨after, hsave, hthere, hread, hcanSave⟩ := h.canSave.exists_save text
  exact ⟨after, hsave, h.named, Environment.load_of_read? h.named hthere hread htext, hthere,
    hcanSave⟩

/-- What comes of a command is what it makes of the settings that are kept. -/
def Follows (env : Environment) (path : String) (disk : Disk)
    (result : Except SettingsFault String × Disk) : Except SettingsFault (Option Settings) → Prop
  | .error fault => result = (.error fault, disk)
  | .ok next? => ∃ output after, result = (.ok output, after) ∧ Keeps env path after next?

theorem follows_show (h : Keeps env path disk kept?) (c : Context) :
    Follows env path disk (Command.runShow c env disk, disk)
      (SettingsCommand.show.change path kept?) := by
  have hshow : ∃ output, Command.runShow c env disk = .ok output := by
    simp only [Command.runShow, h.loads, h.named, bind, Except.bind]
    split
    · exact ⟨_, rfl⟩
    · split <;> exact ⟨_, rfl⟩
  obtain ⟨output, houtput⟩ := hshow
  exact ⟨output, disk, by rw [houtput], h⟩

theorem follows_path (h : Keeps env path disk kept?) (c : Context) :
    Follows env path disk (Command.runPath c env disk, disk)
      (SettingsCommand.path.change path kept?) := by
  have hpath : ∃ output, Command.runPath c env disk = .ok output := by
    simp only [Command.runPath, h.named, bind, Except.bind]
    split <;> exact ⟨_, rfl⟩
  obtain ⟨output, houtput⟩ := hpath
  exact ⟨output, disk, by rw [houtput], h⟩

theorem follows_init (h : Keeps env path disk kept?) (c : Context) (force : Bool) :
    Follows env path disk (Command.runInit c env disk force)
      ((SettingsCommand.init force).change path kept?) := by
  simp only [Command.runInit, h.named, h.contains, SettingsCommand.change]
  split
  · rfl
  · obtain ⟨after, hsave, hkeeps⟩ := h.exists_save Settings.read?_template
    rw [hsave]
    exact ⟨_, after, rfl, hkeeps⟩

theorem follows_set (h : Keeps env path disk kept?) (c : Context) (key text : String) :
    Follows env path disk (Command.runSet c env disk key text)
      ((SettingsCommand.set key text).change path kept?) := by
  have hchanged : Command.changedSettings env disk key text =
      ((kept?.getD .unset).assign key text).map fun s ↦ (path, s.text) := by
    simp only [Command.changedSettings, h.loads, h.named, bind, Except.bind]
    rfl
  simp only [SettingsCommand.change]
  split
  · next hkey =>
    rw [Settings.assign_eq_unknownKey _ ((Setting.ofKey?_eq_none_iff key).mp hkey)] at hchanged
    rw [Command.runSet, hchanged]
    rfl
  · next k hkey =>
    obtain rfl := Setting.key_of_ofKey? hkey
    rw [Settings.assign_key] at hchanged
    cases hread : k.read text with
    | error fault =>
      rw [hread] at hchanged
      rw [Command.runSet, hchanged]
      rfl
    | ok v =>
      rw [hread] at hchanged
      obtain ⟨after, hsave, hkeeps⟩ := h.exists_save (k.put (kept?.getD .unset) v).read?_text
      simp only [Command.runSet, hchanged, Except.map, hsave]
      exact ⟨_, after, rfl, hkeeps⟩

/-- A command about the settings does what it makes of those that are kept, or fails and leaves the
disk as it is. -/
theorem run (h : Keeps env path disk kept?) (flags : Flags) (command : SettingsCommand) :
    (∀ fault, command.change path kept? = .error fault →
      command.run flags env disk = (⟨"", some (.settings fault)⟩, disk)) ∧
    ∀ next?, command.change path kept? = .ok next? →
      (command.run flags env disk).1.error? = none ∧
        Keeps env path (command.run flags env disk).2 next? := by
  obtain ⟨result, hresult, hfollows⟩ : ∃ result, command.run flags env disk =
      (.ofExcept (result.1.mapError .settings), result.2) ∧
        Follows env path disk result (command.change path kept?) := by
    let c := Context.make flags env .unset
    cases command with
    | «show» => exact ⟨(Command.runShow c env disk, disk), rfl, h.follows_show c⟩
    | path => exact ⟨(Command.runPath c env disk, disk), rfl, h.follows_path c⟩
    | init force => exact ⟨_, SettingsCommand.run_init force flags env disk, h.follows_init c force⟩
    | set key text =>
      exact ⟨_, SettingsCommand.run_set key text flags env disk, h.follows_set c key text⟩
  rw [hresult]
  constructor
  · intro fault hfault
    rw [hfault] at hfollows
    rw [show result = (.error fault, disk) from hfollows]
    rfl
  · intro next? hnext
    rw [hnext] at hfollows
    obtain ⟨output, after, rfl, hkeeps⟩ := hfollows
    exact ⟨rfl, hkeeps⟩

end Keeps

/-! ### Runs of commands -/

/-- What comes of a command, and the disk after it, are as the command says: it fails just where it
has to, and then nothing is changed; an assignment changes one setting, to what its text says, and
no other; and in a file that is begun anew nothing is set. -/
structure SettingsCommand.IsExact (env : Environment) (path : String) (disk : Disk)
    (command : SettingsCommand) (result : Outcome × Disk) : Prop where
  unchanged : result.1.error? ≠ none → result.2 = disk
  failed : ∀ e, result.1.error? = some e →
    ∃ fault, e = .settings fault ∧ command.Fails path (disk.contains path) fault
  not_failed : result.1.error? = none → ∀ fault, ¬ command.Fails path (disk.contains path) fault
  assigned : ∀ key text, command = .set key text → result.1.error? = none →
    ∃ (k : Setting) (v : k.Content) (s s' : Settings), k.key = key ∧ k.Says text v ∧
      env.load disk = .ok s ∧ env.load result.2 = .ok s' ∧ k.get? s' = some v ∧
        ∀ other, other ≠ k → other.get? s' = other.get? s
  begun : ∀ force, command = .init force → result.1.error? = none →
    env.load result.2 = .ok .unset

section runs

variable {env : Environment} {path : String} {disk : Disk} {kept? : Option Settings}

namespace Keeps

theorem isExact (h : Keeps env path disk kept?) (flags : Flags) (command : SettingsCommand) :
    command.IsExact env path disk (command.run flags env disk) := by
  obtain ⟨hfailing, hsucceeding⟩ := h.run flags command
  cases hchange : command.change path kept? with
  | error fault =>
    rw [hfailing fault hchange]
    have hfails : command.Fails path (disk.contains path) fault := by
      rw [h.contains]
      exact (command.change_eq_error_iff path kept? fault).mp hchange
    constructor
    · exact fun _ ↦ rfl
    · rintro e ⟨⟩
      exact ⟨fault, rfl, hfails⟩
    · rintro ⟨⟩
    · rintro key text - ⟨⟩
    · rintro force - ⟨⟩
  | ok next? =>
    obtain ⟨herror, hkeeps⟩ := hsucceeding next? hchange
    constructor
    · exact fun hne ↦ absurd herror hne
    · intro e he
      rw [herror] at he
      cases he
    · intro _ fault hfails
      rw [h.contains, ← SettingsCommand.change_eq_error_iff, hchange] at hfails
      cases hfails
    · rintro key text rfl -
      obtain ⟨k, v, hkey, hsays, rfl⟩ := SettingsCommand.change_set_eq_ok hchange
      exact ⟨k, v, _, _, hkey, hsays, h.loads, hkeeps.loads, Setting.get?_put_self _ k v,
        fun other hother ↦ Setting.get?_put_of_ne _ hother v⟩
    · rintro force rfl -
      obtain ⟨-, rfl⟩ := SettingsCommand.change_init_eq_ok hchange
      exact hkeeps.loads

/-- What a disk keeps after a command is what the command makes of what it kept before. -/
theorem keep (h : Keeps env path disk kept?) (flags : Flags) (command : SettingsCommand) :
    Keeps env path (command.run flags env disk).2 (command.keep path kept?) := by
  obtain ⟨hfailing, hsucceeding⟩ := h.run flags command
  unfold SettingsCommand.keep
  split
  · next next? hchange => exact (hsucceeding next? hchange).2
  · next fault hchange =>
    rw [hfailing fault hchange]
    exact h

theorem runAll (h : Keeps env path disk kept?) (commands : List (Flags × SettingsCommand)) :
    Keeps env path (env.runAll disk commands)
      (commands.foldl (fun kept? command ↦ command.2.keep path kept?) kept?) := by
  induction commands generalizing disk kept? with
  | nil => exact h
  | cons command commands ih => exact ih (h.keep command.1 command.2)

end Keeps

/-- Settings that can be loaded are kept, or there is no file. -/
theorem keeps_of_load {s : Settings} (hpath : env.settingsPath = .ok path)
    (hload : env.load disk = .ok s) (hsave : disk.CanSave path) :
    Keeps env path disk (if disk.contains path then some s else none) := by
  refine ⟨hpath, ?_, ?_, hsave⟩
  · split
    · exact hload
    · next hmissing =>
      simp [Environment.load, hpath, hmissing, bind, Except.bind, pure, Except.pure]
  · split
    · next hthere => exact hthere
    · next hmissing => simpa using hmissing

/-- From any settings that can be loaded, commands lead to those that come of folding them, and each
command does what it says and nothing else. -/
theorem load_runAll_and_isExact {s : Settings} (hpath : env.settingsPath = .ok path)
    (hload : env.load disk = .ok s) (hsave : disk.CanSave path)
    (commands : List (Flags × SettingsCommand)) :
    (∃ last?, SettingsCommand.MakeAll path (if disk.contains path then some s else none) commands
      last?) ∧
    (∀ last?, SettingsCommand.MakeAll path (if disk.contains path then some s else none) commands
      last? → env.load (env.runAll disk commands) = .ok (last?.getD .unset)) ∧
    ∀ before flags command after, commands = before ++ (flags, command) :: after →
      command.IsExact env path (env.runAll disk before)
        (command.run flags env (env.runAll disk before)) := by
  have hkeeps := keeps_of_load hpath hload hsave
  refine ⟨⟨_, (SettingsCommand.makeAll_iff commands).mpr rfl⟩, ?_, ?_⟩
  · intro last? hlast
    rw [← (SettingsCommand.makeAll_iff commands).mp hlast]
    exact (hkeeps.runAll commands).loads
  · rintro before flags command after -
    exact (hkeeps.runAll before).isExact flags command

end runs

theorem saysDialects_repeated : SaysDialects "ldap, SCIM,ldap" [.ldap, .scim] := by
  have hldap : NamesDialect "ldap".toList .ldap := (ofText?_eq_some_iff _ _).mp (by decide)
  have hscim : NamesDialect " SCIM".toList .scim := (ofText?_eq_some_iff _ _).mp (by decide)
  exact ⟨[.ldap, .scim, .ldap], .more hldap (.more hscim (.more hldap .none)), by simp, by decide⟩

/-- An entry that is no setting does not count, words are read in letters of either case, repeated
dialects are left out, and commands that fail change nothing: a file that is there already, a word
that is no truth value, a key that is none, and a list without dialects. -/
theorem load_runAll_and_isExact_unknown_entry :
    ∃ (env : Environment) (disk : Disk) (flags : Flags),
      env.settingsPath = .ok "c.toml" ∧ disk.CanSave "c.toml" ∧
      disk.read? "c.toml" =
        some "extra = 1\nprompt = \"$ \"\n[output]\ncolor = true\n" ∧
      env.load disk = .ok ⟨some "$ ", none, none, none, some true⟩ ∧
      env.load (env.runAll disk [(flags, .set "prompt" "> "), (flags, .init false),
        (flags, .set "output.color" "maybe"), (flags, .set "render.optimize" "Off"),
        (flags, .set "color" "off"), (flags, .set "render.collapse_duplicates" "YES"),
        (flags, .set "render.dialects" "ldap, SCIM,ldap"), (flags, .set "render.dialects" " , ")]) =
        .ok ⟨some "> ", some false, some true, some [.ldap, .scim], some true⟩ := by
  let env : Environment := ⟨some "c.toml", none, none, none, none⟩
  let disk : Disk := ⟨.directory [("c.toml", .file
    (some "extra = 1\nprompt = \"$ \"\n[output]\ncolor = true\n"))]⟩
  let flags : Flags := ⟨false, false, false, false⟩
  have hload : env.load disk = .ok ⟨some "$ ", none, none, none, some true⟩ :=
    Environment.load_of_read? rfl rfl rfl (by decide +kernel)
  have hsave : disk.CanSave "c.toml" := fun _ ↦ rfl
  have hmaybe : RefusesBool "maybe" (.notABool "maybe") := by
    refine .notABool fun b ↦ ?_
    rintro ⟨word, hword, htext⟩
    cases hword <;> exact absurd htext (by decide)
  have hnone : RefusesDialects " , " .noDialects :=
    .none (.blank (by decide) (.blank (by decide) .none))
  refine ⟨env, disk, flags, rfl, hsave, rfl, hload, ?_⟩
  refine (load_runAll_and_isExact rfl hload hsave _).2.1 (some _) ?_
  refine .more (.assigned (show Setting.prompt.Says "> " "> " from rfl)) ?_
  refine .more (.failed (.init rfl)) ?_
  refine .more (.failed (.text (show Setting.color.Refuses "maybe" _ from hmaybe))) ?_
  refine .more (.assigned (show Setting.optimize.Says "Off" false from ⟨"off", .off, by decide⟩)) ?_
  refine .more (.failed (.key (by rintro (_ | _ | _ | _ | _) <;> decide))) ?_
  refine .more (.assigned (show Setting.collapse.Says "YES" true from ⟨"yes", .yes, by decide⟩)) ?_
  refine .more (.assigned (show Setting.dialects.Says _ _ from saysDialects_repeated)) ?_
  exact .more (.failed (.text (show Setting.dialects.Refuses " , " _ from hnone))) (.none _)

end PropertyFilter
