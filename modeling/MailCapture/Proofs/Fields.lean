import MailCapture.NumberOrText
import MailCapture.Proofs.Condensed
/-!
Structures that are read as they were written: of every field there is what it holds, and what is
left out has its default.  A reader that gives back what a writer wrote inverts it; whether one does
is settled for the values of fields once, and then for structures field by field.
-/
namespace MailCapture

namespace Document

theorem ofFields_eq (fields : List (String × Json)) :
    ofFields fields = fields.map (fun e => (e.1, ofJson e.2)) := by
  induction fields with
  | nil => rfl
  | cons e rest ih => rw [ofFields, ih, List.map_cons]

theorem ofItems_eq (items : List Json) : ofItems items = items.map ofJson := by
  induction items with
  | nil => rfl
  | cons v rest ih => rw [ofItems, ih, List.map_cons]

end Document

namespace Wire
variable {α : Type}

/-! ### Structures that are read as they were written -/

def written (fields : List (String × Option Json)) : Members :=
  fields.filterMap (fun e => e.2.map (fun v => (e.1, Document.ofJson v)))

theorem ofJson_record (fields : List (String × Option Json)) :
    Document.ofJson (record fields) = .obj (written fields) := by
  have hfields := Document.ofFields_eq
    (fields.filterMap (fun e => e.2.map (fun v => (e.1, v))))
  rw [List.map_filterMap] at hfields
  rw [record, Document.ofJson, hfields, written]
  simp [Function.comp_def]

variable {fields : List (String × Option Json)} {key : String}

theorem filter_written_of_forall (h : ∀ e ∈ fields, e.1 ≠ key) :
    (written fields).filter (fun m => m.1 = key) = [] := by
  rw [List.filter_eq_nil_iff]
  intro m hm
  obtain ⟨e, he, hv⟩ := List.mem_filterMap.1 hm
  obtain ⟨v, -, rfl⟩ := Option.map_eq_some_iff.1 hv
  simpa using h e he

/-- Of a name there is what the field of that name holds. -/
theorem filter_written (hd : Entries.Distinct fields) (key : String) :
    (written fields).filter (fun m => m.1 = key) =
      ((Entries.get? fields key).join.map (fun v => (key, Document.ofJson v))).toList := by
  induction fields with
  | nil => rfl
  | cons e rest ih =>
    obtain ⟨k, field⟩ := e
    obtain ⟨hhead, htail⟩ := Entries.distinct_cons.1 hd
    have hwritten : written ((k, field) :: rest) =
        (field.map (fun v => (k, Document.ofJson v))).toList ++ written rest := by
      cases field <;> simp [written]
    rw [hwritten, List.filter_append, Entries.get?]
    by_cases hk : k = key
    · subst hk
      rw [filter_written_of_forall hhead]
      cases field <;> simp
    · rw [ih htail, if_neg hk]
      cases field <;> simp [hk]

theorem occurrences_written (hd : Entries.Distinct fields) (key : String) :
    occurrences (written fields) key ≤ 1 := by
  rw [occurrences, List.countP_eq_length_filter, filter_written hd]
  cases (Entries.get? fields key).join <;> simp

theorem object?_record (hd : Entries.Distinct fields) (names : List String) :
    object? names (Document.ofJson (record fields)) = some (written fields) := by
  rw [ofJson_record]
  simp [object?, Document.members?, occurrences_written hd]

theorem structure?_record (hd : Entries.Distinct fields) (names : List String) :
    structure? names (Document.ofJson (record fields)) = some (written fields) := by
  rw [← object?_record hd names, ofJson_record, structure?]
  rintro items ⟨⟩

/-- A structure is read from the members of its fields. -/
theorem of_structure {names : List String} {build : Members → Option α} {a : Option α}
    (hd : Entries.Distinct fields) (h : Entries.Distinct fields → build (written fields) = a) :
    (structure? names (Document.ofJson (record fields)) >>= build) = a := by
  rw [structure?_record hd]
  exact h hd

theorem of_members {build : Members → Option α} {a : Option α} (hd : Entries.Distinct fields)
    (h : Entries.Distinct fields → build (written fields) = a) :
    ((Document.ofJson (record fields)).members? >>= build) = a := by
  rw [ofJson_record]
  exact h hd

def readField (field : Option Json) (value : Document → Option α) (missing : Option α) : Option α :=
  field.elim missing (fun v => value (Document.ofJson v))

theorem defaulted_written (hd : Entries.Distinct fields) (value : Document → Option α)
    (missing : α) : defaulted (written fields) key value missing =
      readField (Entries.get? fields key).join value (some missing) := by
  rw [defaulted, readings, filter_written hd, readField]
  cases (Entries.get? fields key).join with
  | none => rfl
  | some v => cases hv : value (Document.ofJson v) <;> simp [hv]

theorem optional_written (hd : Entries.Distinct fields) (value : Document → Option α) :
    optional (written fields) key value =
      readField (Entries.get? fields key).join (nullable value) (some none) :=
  defaulted_written hd (nullable value) none

theorem required_written (hd : Entries.Distinct fields) (value : Document → Option α) :
    required (written fields) key value =
      readField (Entries.get? fields key).join value none := by
  rw [required, readings, filter_written hd, readField]
  cases (Entries.get? fields key).join with
  | none => rfl
  | some v => cases hv : value (Document.ofJson v) <;> simp [hv]

/-! ### Readers that invert writers -/

/-- A reader gives back what was written, and `null` is nothing that is written. -/
structure Inverts (value : Document → Option α) (write : α → Json) : Prop where
  null : value .null = none
  back : ∀ a, value (Document.ofJson (write a)) = some a

variable {value : Document → Option α} {write : α → Json}

theorem nullable_of_eq_some {d : Document} {a : α} (hnull : value .null = none)
    (h : value d = some a) : nullable value d = some (some a) := by
  unfold nullable
  split
  · rw [hnull] at h
    cases h
  · rw [h]
    rfl

theorem readField_map_of {o : Option α} (hnull : value .null = none)
    (h : ∀ a, o = some a → value (Document.ofJson (write a)) = some a) :
    readField (o.map write) (nullable value) (some none) = some o := by
  cases o with
  | none => rfl
  | some a => exact nullable_of_eq_some hnull (h a rfl)

@[simp] theorem readField_map (h : Inverts value write) (o : Option α) :
    readField (o.map write) (nullable value) (some none) = some o :=
  readField_map_of h.null fun a _ => h.back a

@[simp] theorem readField_none (value : Document → Option α) (missing : Option α) :
    readField none value missing = missing := rfl

@[simp] theorem readField_some (h : Inverts value write) (a : α) (missing : Option α) :
    readField (some (write a)) value missing = some a := h.back a

/-- A field that holds something else than `null` is read by what reads its values. -/
@[simp] theorem readField_nullable (h : Inverts value write) (a : α) (missing : Option (Option α)) :
    readField (some (write a)) (nullable value) missing = some (some a) :=
  nullable_of_eq_some h.null (h.back a)

/-! ### Values of fields -/

@[simp] theorem inverts_string : Inverts string? .str := ⟨rfl, fun _ => rfl⟩

@[simp] theorem inverts_bool : Inverts bool? .bool := ⟨rfl, fun _ => rfl⟩

@[simp] theorem inverts_int32 : Inverts int32? int32 := by
  refine ⟨rfl, fun n => ?_⟩
  have hle : n.toInt ≤ 2147483647 := Int32.toInt_le n
  have hge : -2147483648 ≤ n.toInt := Int32.le_toInt n
  simp [int32, Document.ofJson, int32?, whole?, hle, hge]

@[simp] theorem inverts_int64 : Inverts int64? int64 := by
  refine ⟨rfl, fun n => ?_⟩
  have hle : n.toInt ≤ 9223372036854775807 := Int64.toInt_le n
  have hge : -9223372036854775808 ≤ n.toInt := Int64.le_toInt n
  simp [int64, Document.ofJson, int64?, whole?, hle, hge]

theorem list?_arr (as : List α) (h : ∀ a ∈ as, value (Document.ofJson (write a)) = some a) :
    list? value (Document.ofJson (.arr (as.map write))) = some as := by
  rw [Document.ofJson, list?, Document.ofItems_eq, List.map_map]
  induction as with
  | nil => rfl
  | cons a rest ih =>
    obtain ⟨hhead, htail⟩ := List.forall_mem_cons.1 h
    rw [List.map_cons, List.mapM_cons, Function.comp_apply, hhead, ih htail]
    rfl

@[simp] theorem inverts_list (h : Inverts value write) :
    Inverts (list? value) (fun as => .arr (as.map write)) :=
  ⟨rfl, fun as => list?_arr as fun a _ => h.back a⟩

@[simp] theorem readField_items (h : Inverts value write) (as : List α)
    (missing : Option (List α)) :
    readField (some (.arr (as.map write))) (list? value) missing = some as :=
  (inverts_list h).back as

@[simp] theorem readField_nullableItems (h : Inverts value write) (as : List α)
    (missing : Option (Option (List α))) :
    readField (some (.arr (as.map write))) (nullable (list? value)) missing = some (some as) :=
  readField_nullable (inverts_list h) as missing

@[simp] theorem inverts_strings : Inverts strings? strings := inverts_list inverts_string

/-- A map is read with its names in order. -/
theorem map?_obj (h : Inverts value write) (m : Entries α) :
    map? value (Document.ofJson (.obj (m.map (fun e => (e.1, write e.2))))) =
      some (Entries.ofPairs m) := by
  have hread (es : Entries α) : (es.map (fun e => (e.1, Document.ofJson (write e.2)))).mapM
      (fun m => (value m.2).map (fun v => (m.1, v))) = some es := by
    induction es with
    | nil => rfl
    | cons e rest ih =>
      rw [List.map_cons, List.mapM_cons, ih, h.back]
      rfl
  rw [Document.ofJson, Document.ofFields_eq, List.map_map]
  simp only [map?, Function.comp_def, hread, Option.map_some]

theorem stringMap?_stringMap (m : Entries String) :
    stringMap? (Document.ofJson (stringMap m)) = some (Entries.ofPairs m) :=
  map?_obj inverts_string m

@[simp] theorem inverts_numberOrText : Inverts NumberOrText.read? NumberOrText.toJson := by
  refine ⟨rfl, fun v => ?_⟩
  cases v with
  | text s => rfl
  | number n => exact congrArg (Option.map NumberOrText.number) (inverts_int32.back n)

/-! ### Fields that are left out -/

@[simp] theorem readField_unlessEmpty (s : String) :
    readField (unlessEmpty s) string? (some "") = some s := by
  by_cases hs : s = ""
  · simp [unlessEmpty, hs]
  · simp [unlessEmpty, hs]

@[simp] theorem readField_flag (b : Bool) :
    readField (if b then some (.bool true) else none) bool? (some false) = some b := by
  cases b <;> simp

@[simp] theorem readField_unlessNil (h : Inverts value write) (as : List α) :
    readField (if as.isEmpty then none else some (.arr (as.map write))) (list? value) (some []) =
      some as := by
  cases as with
  | nil => rfl
  | cons a rest => exact (inverts_list h).back (a :: rest)

end Wire

end MailCapture
