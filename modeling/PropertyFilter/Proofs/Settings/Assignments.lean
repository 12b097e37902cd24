import PropertyFilter.Proofs.Settings.Contents

/-!
# Settings one by one

Each of the settings has a key, things that texts say for it, and a place of its own among the
settings. What is read of a text for a setting is what the text says for it, and reading fails with
what is wrong with the text (`read_eq_ok_iff`, `read_eq_error_iff`). Putting something in the place
of a setting leaves all other settings as they are (`get?_put_of_ne`), and an assignment puts there
what is read of its text (`assign_key`).
-/

set_option autoImplicit false

namespace PropertyFilter

/-- The settings that can be made. -/
inductive Setting
  | prompt
  | optimize
  | collapse
  | dialects
  | color
  deriving DecidableEq

namespace Setting

def all : List Setting := [.prompt, .optimize, .collapse, .dialects, .color]

def key : Setting → String
  | prompt => "prompt"
  | optimize => "render.optimize"
  | collapse => "render.collapse_duplicates"
  | dialects => "render.dialects"
  | color => "output.color"

/-- What a setting is set to. -/
abbrev Content : Setting → Type
  | prompt => String
  | optimize => Bool
  | collapse => Bool
  | dialects => List Dialect
  | color => Bool

/-- What a text says for a setting. A prompt may be any text. -/
def Says (text : String) : (k : Setting) → k.Content → Prop
  | prompt => fun own ↦ own = text
  | optimize => SaysBool text
  | collapse => SaysBool text
  | dialects => SaysDialects text
  | color => SaysBool text

/-- What is wrong with a text that says nothing for a setting. -/
def Refuses (text : String) : Setting → SettingsFault → Prop
  | prompt => fun _ ↦ False
  | optimize => RefusesBool text
  | collapse => RefusesBool text
  | dialects => RefusesDialects text
  | color => RefusesBool text

/-- What a text is read as for a setting. -/
def read (text : String) : (k : Setting) → Except SettingsFault k.Content
  | prompt => .ok text
  | optimize => Settings.readBool text
  | collapse => Settings.readBool text
  | dialects => Settings.readDialects text
  | color => Settings.readBool text

/-- What a setting is set to, if it is. -/
def get? (s : Settings) : (k : Setting) → Option k.Content
  | prompt => s.prompt?
  | optimize => s.optimize?
  | collapse => s.collapse?
  | dialects => s.dialects?
  | color => s.color?

/-- The settings with one of them set. -/
def put (s : Settings) : (k : Setting) → k.Content → Settings
  | prompt, text => { s with prompt? := some text }
  | optimize, b => { s with optimize? := some b }
  | collapse, b => { s with collapse? := some b }
  | dialects, ds => { s with dialects? := some ds }
  | color, b => { s with color? := some b }

section Reading

variable {k : Setting} {text : String}

theorem read_eq_ok {v : k.Content} (h : k.Says text v) : k.read text = .ok v := by
  cases k with
  | prompt => exact congrArg Except.ok (Eq.symm h)
  | optimize => exact Settings.readBool_of_saysBool h
  | collapse => exact Settings.readBool_of_saysBool h
  | dialects => exact Settings.readDialects_of_saysDialects h
  | color => exact Settings.readBool_of_saysBool h

theorem read_eq_error {fault : SettingsFault} (h : k.Refuses text fault) :
    k.read text = .error fault := by
  cases k with
  | prompt => exact False.elim h
  | optimize => exact Settings.readBool_of_refusesBool h
  | collapse => exact Settings.readBool_of_refusesBool h
  | dialects => exact Settings.readDialects_of_refusesDialects h
  | color => exact Settings.readBool_of_refusesBool h

theorem says_or_refuses (k : Setting) (text : String) :
    (∃ v, k.Says text v) ∨ ∃ fault, k.Refuses text fault := by
  cases k with
  | prompt => exact .inl ⟨text, rfl⟩
  | optimize => exact Settings.saysBool_or_refusesBool text
  | collapse => exact Settings.saysBool_or_refusesBool text
  | dialects => exact Settings.saysDialects_or_refusesDialects text
  | color => exact Settings.saysBool_or_refusesBool text

theorem read_eq_ok_iff {v : k.Content} : k.read text = .ok v ↔ k.Says text v := by
  refine ⟨fun h ↦ ?_, read_eq_ok⟩
  rcases k.says_or_refuses text with ⟨own, hsays⟩ | ⟨fault, hrefuses⟩
  · rw [read_eq_ok hsays] at h
    exact Except.ok.inj h ▸ hsays
  · rw [read_eq_error hrefuses] at h
    cases h

theorem read_eq_error_iff {fault : SettingsFault} :
    k.read text = .error fault ↔ k.Refuses text fault := by
  refine ⟨fun h ↦ ?_, read_eq_error⟩
  rcases k.says_or_refuses text with ⟨own, hsays⟩ | ⟨fault', hrefuses⟩
  · rw [read_eq_ok hsays] at h
    cases h
  · rw [read_eq_error hrefuses] at h
    exact Except.error.inj h ▸ hrefuses

end Reading

theorem get?_put_self (s : Settings) (k : Setting) (v : k.Content) :
    k.get? (k.put s v) = some v := by
  cases k <;> rfl

theorem get?_put_of_ne (s : Settings) {k other : Setting} (h : other ≠ k) (v : k.Content) :
    other.get? (k.put s v) = other.get? s := by
  cases k <;> cases other <;> first | rfl | exact absurd rfl h

/-- The setting with exactly this key. -/
def ofKey? (key : String) : Option Setting := all.find? fun k ↦ k.key == key

theorem ofKey?_key (k : Setting) : ofKey? k.key = some k := by
  cases k <;> decide

theorem ofKey?_eq_none_iff (key : String) : ofKey? key = none ↔ ∀ k : Setting, k.key ≠ key := by
  constructor
  · rintro h k rfl
    rw [ofKey?_key] at h
    cases h
  · intro h
    exact List.find?_eq_none.mpr fun k _ ↦ by simpa using h k

theorem key_of_ofKey? {key : String} {k : Setting} (h : ofKey? key = some k) : k.key = key := by
  have hfound := List.find?_some h
  exact beq_iff_eq.mp hfound

end Setting

namespace Settings

theorem assign_key (s : Settings) (k : Setting) (text : String) :
    s.assign k.key text = (k.read text).map (k.put s) := by
  cases k <;> rfl

theorem assign_eq_unknownKey (s : Settings) {key : String} (h : ∀ k : Setting, k.key ≠ key)
    (text : String) : s.assign key text = .error (.unknownKey key) := by
  unfold assign
  split
  · exact absurd rfl (h .prompt)
  · exact absurd rfl (h .optimize)
  · exact absurd rfl (h .collapse)
  · exact absurd rfl (h .dialects)
  · exact absurd rfl (h .color)
  · rfl

end Settings

end PropertyFilter
