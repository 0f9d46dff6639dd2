import MailCapture.Proofs.Stamped
/-!
Drift, told by places.  A desired and an observed value are walked side by side, through names that
both have and positions in arrays of one length.  There is drift exactly when some walk ends where
the two deviate by themselves: arrays of different lengths, different values, a desired field that
counts and is missing, or a field that was applied and is there but is not desired any more.
-/
namespace MailCapture

namespace Json

inductive PathStep where
  | name (name : String)
  | position (i : Nat)
  deriving DecidableEq, Repr

def inside? (v : Json) : PathStep → Option Json
  | .name name => v.field? name
  | .position i =>
    match v with
    | .arr items => items[i]?
    | _ => none

def at? (v : Json) (path : List PathStep) : Option Json := path.foldlM inside? v

theorem lastItem?_eq (last : Option Json) (i : Nat) :
    lastItem? last i = last.bind (·.inside? (.position i)) := by
  cases last with
  | none => rfl
  | some l => cases l <;> rfl

theorem bind_at?_cons (last : Option Json) (step : PathStep) (path : List PathStep) :
    last.bind (·.at? (step :: path)) = (last.bind (·.inside? step)).bind (·.at? path) := by
  cases last <;> rfl

/-! ### Walking side by side -/

/-- One step of a walk: to a field that both objects have, or to one position of two arrays of the
same length. -/
inductive Shares : Json → Json → PathStep → Json → Json → Prop
  | field {d c : Entries Json} {name : String} {v x : Json} (hd : (name, v) ∈ d)
      (hc : Entries.get? c name = some x) : Shares (.obj d) (.obj c) (.name name) v x
  | item {ds cs : List Json} {i : Nat} {v x : Json} (hlength : ds.length = cs.length)
      (hd : ds[i]? = some v) (hc : cs[i]? = some x) : Shares (.arr ds) (.arr cs) (.position i) v x

/-- Whether a path leads from two values to two others, with every step open to both. -/
inductive Meets : Json → Json → List PathStep → Json → Json → Prop
  | here (d c : Json) : Meets d c [] d c
  | step {d c v x v' x' : Json} {step : PathStep} {path : List PathStep}
      (hstep : d.Shares c step v x) (hrest : Meets v x path v' x') :
      Meets d c (step :: path) v' x'

theorem Shares.sizeOf_lt {d c v x : Json} {step : PathStep} (h : d.Shares c step v x) :
    sizeOf v < sizeOf d := by
  cases h with
  | field hd hc =>
    have hlt := List.sizeOf_lt_of_mem hd
    simp only [Prod.mk.sizeOf_spec, obj.sizeOf_spec] at hlt ⊢
    omega
  | item hlength hd hc =>
    have hlt := List.sizeOf_lt_of_mem (List.mem_of_getElem? hd)
    simp only [arr.sizeOf_spec]
    omega

/-! ### Deviations -/

/-- Whether two values deviate by themselves, with what was applied at their place. -/
inductive Deviates : Json → Json → Option Json → Prop
  | length {d c : List Json} {last : Option Json} (h : d.length ≠ c.length) :
      Deviates (.arr d) (.arr c) last
  | value {d c : Json} {last : Option Json} (hobjects : ∀ ds cs, ¬ (d = .obj ds ∧ c = .obj cs))
      (harrays : ∀ ds cs, ¬ (d = .arr ds ∧ c = .arr cs)) (h : d.same c = false) :
      Deviates d c last
  | missing {d c : Entries Json} {last : Option Json} {name : String} {v : Json}
      (hd : (name, v) ∈ d) (hv : v.isZero = false) (hc : Entries.has c name = false) :
      Deviates (.obj d) (.obj c) last
  | dropped {d c applied : Entries Json} {name : String} (hl : Entries.has applied name = true)
      (hc : Entries.has c name = true) (hd : Entries.has d name = false) :
      Deviates (.obj d) (.obj c) (some (.obj applied))

/-- One step of the comparison: two values differ by themselves or at a step that is open to
both. -/
theorem differs_iff (d c : Json) (last : Option Json) : differs d c last = true ↔
    d.Deviates c last ∨ ∃ step v x, d.Shares c step v x ∧
      differs v x (last.bind (·.inside? step)) = true := by
  constructor
  · intro h
    unfold differs at h
    split at h
    · rename_i d c
      rw [Bool.or_eq_true, fieldsDiffer_iff, isDropped_iff] at h
      obtain ⟨⟨name, v⟩, hd, hfield⟩ | ⟨applied, name, rfl, hl, hc, hd⟩ := h
      · cases hc : Entries.get? c name with
        | none =>
          rw [hc] at hfield
          exact Or.inl (.missing hd hfield (by rw [Entries.has, hc]; rfl))
        | some x =>
          rw [hc] at hfield
          exact Or.inr ⟨.name name, v, x, .field hd hc, hfield⟩
      · exact Or.inl (.dropped hl hc hd)
    · rename_i d c
      rw [Bool.or_eq_true, bne_iff_ne, itemsDiffer_iff] at h
      by_cases hlength : d.length = c.length
      · obtain ⟨i, v, x, hd, hc, hitem⟩ := h.resolve_left (· hlength)
        rw [Nat.zero_add, lastItem?_eq] at hitem
        exact Or.inr ⟨.position i, v, x, .item hlength hd hc, hitem⟩
      · exact Or.inl (.length hlength)
    · rename_i hobjects harrays
      exact Or.inl (.value (fun ds cs he => hobjects ds cs he.1 he.2)
        (fun ds cs he => harrays ds cs he.1 he.2) (by simpa using h))
  · rintro (h | ⟨step, v, x, hstep, h⟩)
    · cases h with
      | length h => simp [differs, h]
      | value hobjects harrays h =>
        rw [differs, h]
        · rfl
        · exact fun ds cs hd hc => hobjects ds cs ⟨hd, hc⟩
        · exact fun ds cs hd hc => harrays ds cs ⟨hd, hc⟩
      | missing hd hv hc =>
        rw [differs_obj, Bool.or_eq_true, fieldsDiffer_iff]
        rw [Entries.has, Option.isSome_eq_false_iff, Option.isNone_iff_eq_none] at hc
        exact Or.inl ⟨_, hd, by rwa [hc]⟩
      | dropped hl hc hd =>
        rw [differs_obj, Bool.or_eq_true, isDropped_iff]
        exact Or.inr ⟨_, _, rfl, hl, hc, hd⟩
    · cases hstep with
      | field hd hc =>
        rw [differs_obj, Bool.or_eq_true, fieldsDiffer_iff]
        exact Or.inl ⟨_, hd, by rwa [hc]⟩
      | item hlength hd hc =>
        rw [differs, Bool.or_eq_true, itemsDiffer_iff]
        exact Or.inr ⟨_, _, _, hd, hc, by rwa [Nat.zero_add, lastItem?_eq]⟩

/-- Two values differ exactly when some walk ends where they deviate. -/
theorem differs_iff_meets (d c : Json) (last : Option Json) : differs d c last = true ↔
    ∃ path v x, d.Meets c path v x ∧ v.Deviates x (last.bind (·.at? path)) := by
  constructor
  · intro h
    obtain hhere | ⟨step, v, x, hstep, hinside⟩ := (differs_iff d c last).1 h
    · exact ⟨[], d, c, .here d c, by cases last <;> exact hhere⟩
    · have hsmaller : sizeOf v < sizeOf d := hstep.sizeOf_lt
      obtain ⟨path, v', x', hrest, hend⟩ := (differs_iff_meets v x _).1 hinside
      exact ⟨step :: path, v', x', .step hstep hrest, by rwa [bind_at?_cons]⟩
  · rintro ⟨path, v, x, hwalk, hend⟩
    induction hwalk generalizing last with
    | here d c => exact (differs_iff d c last).2 (Or.inl (by cases last <;> exact hend))
    | step hstep hrest ih =>
      rw [bind_at?_cons] at hend
      exact (differs_iff _ _ last).2 (Or.inr ⟨_, _, _, hstep, ih _ hend⟩)
  termination_by sizeOf d

end Json

namespace Manifest

/-! ### What a server sets -/

def underServer (m : Manifest) (server : Metadata) (status : Json) : Manifest :=
  ⟨m.types, m.metadata.withServer server, Entries.put m.fields "status" status⟩

theorem fieldsUnder_underServer (m : Manifest) (server : Metadata) (status metadata : Json) :
    (m.underServer server status).fieldsUnder metadata =
      Entries.put (m.fieldsUnder metadata) "status" status := by
  have hmetadata : Entries.put (Entries.put m.fields "status" status) "metadata" metadata =
      Entries.put (Entries.put m.fields "metadata" metadata) "status" status :=
    Entries.put_comm _ (by decide) _ _
  unfold fieldsUnder underServer
  cases m.types with
  | none => exact hmetadata
  | some t =>
    dsimp only
    rw [hmetadata, Entries.put_comm _ (show "apiVersion" ≠ "status" by decide),
      Entries.put_comm _ (show "kind" ≠ "status" by decide)]

/-- What a server sets does not count in a comparison. -/
theorem comparable_underServer (m : Manifest) (server : Metadata) (status : Json) :
    (m.underServer server status).comparable = m.comparable := by
  have hmetadata : (m.underServer server status).metadataFields =
      (m.withMetadata (·.withServer server)).metadataFields := rfl
  rw [← m.comparable_withServer server, comparable_eq, comparable_eq, comparableFields_eq,
    comparableFields_eq, hmetadata, fieldsUnder_underServer, Entries.remove_put_self]
  rfl

theorem lastApplied?_underServer (m : Manifest) (server : Metadata) (status : Json) :
    (m.underServer server status).lastApplied? = m.lastApplied? := rfl

/-- An observed object has to be replaced exactly when a walk through the comparable parts of the
desired and the observed object ends where they deviate.  It is replaced by the desired object with
nothing but its stamp set, and left as it is otherwise.  What a server sets in either object does
not matter. -/
theorem needsUpdate_iff_deviates (observed desired : Manifest) :
    (observed.needsUpdate desired = true ↔ ∃ path d c,
      desired.comparable.Meets observed.comparable path d c ∧
        d.Deviates c (observed.lastApplied?.bind (·.at? path))) ∧
    observed.settled desired = (if observed.needsUpdate desired then
      desired.withMetadata (fun metadata => { metadata with
        annotations := some (Entries.put (metadata.annotations.getD []) lastAppliedAnnotation
          desired.comparable.render) })
      else observed) ∧
    ∀ (server server' : Metadata) (status status' : Json),
      (observed.underServer server status).needsUpdate (desired.underServer server' status') =
        observed.needsUpdate desired := by
  refine ⟨Json.differs_iff_meets _ _ _, rfl, fun server server' status status' => ?_⟩
  rw [needsUpdate, comparable_underServer, comparable_underServer, lastApplied?_underServer,
    needsUpdate]

end Manifest
end MailCapture
