import Mathlib.Data.List.Forall2
import PropertyFilter.Proofs.DateTime.Reading
import PropertyFilter.Proofs.Uuid
import PropertyFilter.Proofs.Value.Same
import PropertyFilter.Value.Stored

/-!
# Documents of values

`Value.Describes` says which documents stand for a value: objects with the name of its type and a
content that `Value.IsContent` allows for it. Every such document is read as the value, in place and
from what was put aside (`Value.ofStored?_of_describes`). The document that a value is stored as
stands for that value, wide integers with all their digits and in their representation; only a point
in time stands for what its text is read as (`Value.describes_stored`), which is the same one if it
is regular (`Value.restorable_of_isRegular`).
-/

set_option autoImplicit false

namespace PropertyFilter.Value

/-! ### Contents -/

/-- A content that a value is stored as, whatever reading makes of the text of a point in time or of
an identifier. A float may be written without a point. -/
inductive IsContent : Json → Value → Prop
  | bool (b : Bool) : IsContent (.bool b) (.bool b)
  | int (i : Int64) : IsContent (.integer i.toInt) (.int i)
  | bigInt {sign : Int} {digits : List Nat} (hsign : sign = -1 ∨ sign = 0 ∨ sign = 1)
      (hdigits : ∀ digit ∈ digits, digit < wideBase) :
      IsContent
        (.array [.integer sign, .array (digits.map fun (digit : Nat) ↦ Json.integer digit)])
        (.bigInt (sign * ofWideDigits digits))
  | real (x : Binary64) : IsContent (.real x) (.float x)
  | whole (i : Int) : IsContent (.integer i) (.float (Binary64.ofInt i))
  | string (s : String) : IsContent (.string s) (.string s)
  | dateTime {s : String} {t : DateTime} (h : DateTime.readLoose? s.toList = some t) :
      IsContent (.string s) (.dateTime t)
  | uuid {s : String} {u : Uuid} (h : Uuid.read? s.toList = some u) :
      IsContent (.string s) (.uuid u)

theorem mapM_wideDigit? {digits : List Nat} (h : ∀ digit ∈ digits, digit < wideBase) :
    (digits.map fun (digit : Nat) ↦ Json.integer digit).mapM wideDigit? = some digits := by
  induction digits with
  | nil => rfl
  | cons digit digits ih =>
    rw [List.forall_mem_cons] at h
    have hdigit : wideDigit? (.integer digit) = some digit := by
      have hlt : (digit : Int) < wideBase := by exact_mod_cast h.1
      simp [wideDigit?, hlt]
    simp [List.mapM_cons, hdigit, ih h.2]

theorem wideInteger?_content {sign : Int} {digits : List Nat}
    (hsign : sign = -1 ∨ sign = 0 ∨ sign = 1) (hdigits : ∀ digit ∈ digits, digit < wideBase) :
    wideInteger?
        (.array [.integer sign, .array (digits.map fun (digit : Nat) ↦ Json.integer digit)]) =
      some (sign * ofWideDigits digits) := by
  rw [wideInteger?, if_pos hsign, mapM_wideDigit? hdigits]
  rfl

theorem fits_toInt (i : Int64) : fits i.toInt = true := by
  have hlow := Int64.le_toInt i
  have hhigh := Int64.toInt_lt i
  exact (fits_iff _).mpr ⟨by omega, by omega⟩

/-- A content is read as the value, given the name of its type. -/
theorem ofStoredContent?_of_isContent {content : Json} {v : Value} (h : IsContent content v) :
    ofStoredContent? v.storedType content = some v := by
  cases h with
  | bool b => rfl
  | int i => simp [storedType, ofStoredContent?, fits_toInt]
  | bigInt hsign hdigits =>
    rw [storedType, ofStoredContent?, wideInteger?_content hsign hdigits]
    rfl
  | real x => rfl
  | whole i => rfl
  | string s => rfl
  | dateTime h =>
    rw [storedType, ofStoredContent?, h]
    rfl
  | uuid h =>
    rw [storedType, ofStoredContent?, h]
    rfl

/-! ### Documents -/

/-- A document of the form that values are stored in. -/
inductive Describes : Json → Value → Prop
  | object {entries : Entries Json} {content : Json} {v : Value}
      (htype : Entries.find? "type" entries = some (.string v.storedType))
      (hcontent : Entries.find? "value" entries = some content) (h : IsContent content v) :
      Describes (.object entries) v

theorem ofStored?_of_describes (access : Json.Access) {document : Json} {v : Value}
    (h : Describes document v) : ofStored? access document = some v := by
  cases h with
  | object htype hcontent h =>
    simp [ofStored?, htype, hcontent, Json.Access.tagOfEntry?_string,
      ofStoredContent?_of_isContent h]

theorem mapM_ofStored?_of_describes (access : Json.Access) {documents : List Json}
    {vs : List Value} (h : List.Forall₂ Describes documents vs) :
    documents.mapM (ofStored? access) = some vs := by
  induction h with
  | nil => rfl
  | cons hhead _ ih => simp [List.mapM_cons, ofStored?_of_describes access hhead, ih]

/-! ### Stored values -/

/-- The value that a stored one is read as: a point in time is what its text is read as. -/
def restored : Value → Value
  | .dateTime t => .dateTime ((DateTime.readLoose? t.text).getD t)
  | v => v

/-- A value survives being stored: the text of a point in time is read as the same one. -/
def Restorable (v : Value) : Prop :=
  ∀ t, v = .dateTime t → ∃ u, DateTime.readLoose? t.text = some u ∧ u.same t = true

/-- Values other than points in time survive, and so do regular points in time. -/
theorem restorable_of_isRegular {v : Value} (h : ∀ t, v = .dateTime t → t.IsRegular) :
    v.Restorable := by
  intro t ht
  exact ⟨t, DateTime.readLoose?_text (h t ht), (DateTime.same_iff t t).mpr ⟨rfl, rfl⟩⟩

theorem lt_of_mem_wideDigits {n digit : Nat} (h : digit ∈ wideDigits n) : digit < wideBase := by
  induction n using Nat.strongRecOn with
  | _ n ih =>
    rw [wideDigits] at h
    split at h
    · cases h
    · next hn =>
      rw [List.mem_cons] at h
      rcases h with rfl | h
      · exact Nat.mod_lt _ (by decide)
      · exact ih _ (Nat.div_lt_self (Nat.pos_of_ne_zero hn) (by decide)) h

theorem isContent_storedContent {v : Value} (husable : v.isUsable = true) (hv : v.Restorable) :
    IsContent v.storedContent v.restored := by
  cases v with
  | bool b => exact .bool b
  | int i => exact .int i
  | bigInt i =>
    have hvalue : i.sign * ofWideDigits (wideDigits i.natAbs) = i := by
      rw [ofWideDigits_wideDigits, Int.sign_mul_natAbs]
    have hsign : i.sign = -1 ∨ i.sign = 0 ∨ i.sign = 1 := by
      rcases i.sign_trichotomy with h | h | h <;> simp [h]
    have hcontent := IsContent.bigInt hsign fun digit (h : digit ∈ wideDigits i.natAbs) ↦
      lt_of_mem_wideDigits h
    rwa [hvalue] at hcontent
  | float x =>
    rw [storedContent, if_pos (show x.isFinite = true from husable)]
    exact .real x
  | string s => exact .string s
  | dateTime t =>
    obtain ⟨u, hread, -⟩ := hv t rfl
    rw [restored, hread]
    exact .dateTime (by rw [String.toList_ofList, hread]; rfl)
  | uuid u => exact .uuid (by rw [String.toList_ofList, Uuid.read?_text])

theorem storedType_restored (v : Value) : v.restored.storedType = v.storedType := by
  cases v <;> rfl

/-- The document of a usable value describes what is read back. -/
theorem describes_stored {v : Value} (husable : v.isUsable = true) (hv : v.Restorable) :
    Describes v.stored v.restored := by
  have htype : Entries.find? "type" [("type", .string v.storedType), ("value", v.storedContent)] =
      some (.string v.restored.storedType) := by
    rw [storedType_restored]
    rfl
  exact .object htype rfl (isContent_storedContent husable hv)

/-! ### What is read back -/

theorem isUsable_restored (v : Value) : v.restored.isUsable = v.isUsable := by
  cases v <;> rfl

theorem restored_dateTime {t : DateTime} (h : (Value.dateTime t).Restorable) :
    ∃ u, (Value.dateTime t).restored = .dateTime u ∧ u.seconds = t.seconds ∧ u.nanos = t.nanos := by
  obtain ⟨u, hread, hsame⟩ := h t rfl
  refine ⟨u, ?_, (DateTime.same_iff u t).mp hsame⟩
  rw [restored, hread]
  rfl

/-- Values are told apart as before by what they are read back as. -/
theorem same_restored_restored {v w : Value} (hv : v.Restorable) (hw : w.Restorable) :
    v.restored.same w.restored = v.same w := by
  cases v with
  | dateTime t =>
    obtain ⟨t', ht', hseconds, hnanos⟩ := restored_dateTime hv
    rw [ht']
    cases w with
    | dateTime u =>
      obtain ⟨u', hu', hseconds', hnanos'⟩ := restored_dateTime hw
      rw [hu', same, same, Bool.eq_iff_iff, DateTime.same_iff, DateTime.same_iff, hseconds, hnanos,
        hseconds', hnanos']
    | _ => simp only [restored, same]
  | _ =>
    cases w with
    | dateTime u =>
      obtain ⟨u', hu', -⟩ := restored_dateTime hw
      rw [hu']
      simp only [restored, same]
    | _ => simp only [restored]

theorem same_self {v : Value} (husable : v.isUsable = true) : v.same v = true := by
  cases v with
  | float x =>
    simp only [same, Binary64.same, Binary64.compare_self_of_isFinite x husable, beq_self_eq_true]
  | dateTime t => exact (DateTime.same_iff t t).mpr ⟨rfl, rfl⟩
  | _ => simp only [same, beq_self_eq_true]

/-- What is read back is the same value. -/
theorem restored_same {v : Value} (husable : v.isUsable = true) (hv : v.Restorable) :
    v.restored.same v = true := by
  cases v with
  | dateTime t =>
    obtain ⟨u, hu, hfields⟩ := restored_dateTime hv
    rw [hu]
    exact (DateTime.same_iff u t).mpr hfields
  | _ => exact same_self husable

end PropertyFilter.Value
