import MailCapture.Proofs.Spelling
/-!
The document that is read from the text of a value.  It has the names and the shape of the value;
what its numbers are read as is left to the reader of numbers, and what is nested too deep is
marked.
-/
namespace MailCapture

namespace Document

mutual

def spelled? (depth : Nat) : Json → Option Document
  | .null => some .null
  | .bool b => some (.bool b)
  | .int n => number? (Json.wholeNumber n)
  | .double x => number? (Json.numberLayout.write Double.shortest x)
  | .str s => some (.str s)
  | .arr items => (spelledItems? (depth + 1) items).map
      (fun ds => if depth < depthLimit then .arr ds else .unreadable)
  | .obj fields => (spelledFields? (depth + 1) fields).map
      (fun ms => if depth < depthLimit then .obj ms else .unreadable)

def spelledItems? (depth : Nat) : List Json → Option (List Document)
  | [] => some []
  | v :: rest =>
    (spelled? depth v).bind (fun d => (spelledItems? depth rest).map (fun ds => d :: ds))

def spelledFields? (depth : Nat) : List (String × Json) → Option Members
  | [] => some []
  | (k, v) :: rest =>
    (spelled? depth v).bind (fun d => (spelledFields? depth rest).map (fun ms => (k, d) :: ms))

end

def Builder.build (b : Builder) (ts : List Token) : Option Builder := ts.foldlM Builder.step b

def Phase.takesValue : Phase → Prop
  | .value | .firstItem => True
  | _ => False

def Phase.takesKey : Phase → Prop
  | .key | .firstKey => True
  | _ => False

theorem ofMembers_some (ms : Members) :
    ofMembers (ms.map (fun m => (some m.1, m.2))).reverse = .obj ms := by
  have h : (ms.map (fun m => (some m.1, m.2))).mapM
      (fun m : Option String × Document => m.1.map (fun key => (key, m.2))) = some ms := by
    induction ms with
    | nil => rfl
    | cons m rest ih =>
      rw [List.map_cons, List.mapM_cons, ih]
      rfl
  rw [ofMembers, List.reverse_reverse, h]

theorem build_atom {phase : Phase} (h : phase.takesValue) (stack : List Frame) (v : Document)
    (rest : List Token) : (⟨stack, phase⟩ : Builder).build (.atom v :: rest) =
      (Builder.deliver stack v).build rest := by
  cases phase <;> first | rfl | cases h

theorem build_text {phase : Phase} (h : phase.takesValue) (stack : List Frame) (s : String)
    (rest : List Token) : (⟨stack, phase⟩ : Builder).build (.text (some s) :: rest) =
      (Builder.deliver stack (.str s)).build rest := by
  cases phase <;> first | rfl | cases h

theorem build_openArray {phase : Phase} (h : phase.takesValue) (stack : List Frame)
    (rest : List Token) : (⟨stack, phase⟩ : Builder).build (.openArray :: rest) =
      (⟨.array [] :: stack, .firstItem⟩ : Builder).build rest := by
  cases phase <;> first | rfl | cases h

theorem build_openObject {phase : Phase} (h : phase.takesValue) (stack : List Frame)
    (rest : List Token) : (⟨stack, phase⟩ : Builder).build (.openObject :: rest) =
      (⟨.object [] none :: stack, .firstKey⟩ : Builder).build rest := by
  cases phase <;> first | rfl | cases h

theorem build_key {phase : Phase} (h : phase.takesKey) (members : List (Option String × Document))
    (key : Option String) (stack : List Frame) (k : String) (rest : List Token) :
    (⟨.object members key :: stack, phase⟩ : Builder).build
        (.text (some k) :: .colon :: rest) =
      (⟨.object members (some k) :: stack, .value⟩ : Builder).build rest := by
  cases phase <;> first | rfl | cases h

/-- Of two results that are needed, the first may be had in another way if that gives the same with
every second one. -/
theorem bind_exchange {α β γ δ : Type} {x : Option α} (y : Option β) {z : Option γ}
    {f : α → β → Option δ} {g : γ → β → Option δ}
    (h : ∀ b, x.bind (fun a => f a b) = z.bind (fun c => g c b)) :
    x.bind (fun a => y.bind (f a)) = z.bind (fun c => y.bind (g c)) :=
  calc
    _ = y.bind (fun b => x.bind (fun a => f a b)) := Option.bind_comm _ _
    _ = y.bind (fun b => z.bind (fun c => g c b)) := congrArg y.bind (funext h)
    _ = _ := Option.bind_comm _ _

mutual

/-- The tokens of a value are read as the value. -/
theorem build_value : (v : Json) → (phase : Phase) → phase.takesValue → (stack : List Frame) →
    (rest : List Token) →
    (tokensOf? v).bind (fun ts => (⟨stack, phase⟩ : Builder).build (ts ++ rest)) =
      (spelled? stack.length v).bind (fun d => (Builder.deliver stack d).build rest)
  | .null, _, h, stack, rest => by
    rw [tokensOf?, spelled?]
    exact build_atom h stack .null rest
  | .bool b, _, h, stack, rest => by
    rw [tokensOf?, spelled?]
    exact build_atom h stack (.bool b) rest
  | .int n, _, h, stack, rest => by
    rw [tokensOf?, spelled?]
    cases number? (Json.wholeNumber n) with
    | none => rfl
    | some d => exact build_atom h stack d rest
  | .double x, _, h, stack, rest => by
    rw [tokensOf?, spelled?]
    cases number? (Json.numberLayout.write Double.shortest x) with
    | none => rfl
    | some d => exact build_atom h stack d rest
  | .str s, _, h, stack, rest => by
    rw [tokensOf?, spelled?]
    exact build_text h stack s rest
  | .arr [], _, h, stack, rest => by
    rw [tokensOf?, spelled?, itemTokens?, spelledItems?]
    exact build_openArray h stack _
  | .arr (v :: items), _, h, stack, rest => by
    rw [tokensOf?, spelled?, Option.bind_map, Option.bind_map]
    refine Eq.trans ?_ (build_items (v :: items) (by simp) .firstItem trivial []
      stack rest)
    congr 1
    funext ts
    simp [build_openArray h]
  | .obj [], _, h, stack, rest => by
    rw [tokensOf?, spelled?, fieldTokens?, spelledFields?]
    exact build_openObject h stack _
  | .obj (e :: fields), _, h, stack, rest => by
    rw [tokensOf?, spelled?, Option.bind_map, Option.bind_map]
    refine Eq.trans ?_ (build_fields (e :: fields) (by simp) .firstKey trivial []
      none stack rest)
    congr 1
    funext ts
    simp [build_openObject h]

theorem build_items : (items : List Json) → items ≠ [] → (phase : Phase) → phase.takesValue →
    (acc : List Document) → (stack : List Frame) → (rest : List Token) →
    (itemTokens? items).bind (fun ts =>
        (⟨.array acc :: stack, phase⟩ : Builder).build (ts ++ .closeArray :: rest)) =
      (spelledItems? (stack.length + 1) items).bind (fun ds =>
        (Builder.deliverContainer stack (.arr (acc.reverse ++ ds))).build rest)
  | [], hne, _, _, _, _, _ => absurd rfl hne
  | [v], _, _, h, acc, stack, rest => by
    rw [itemTokens?, spelledItems?, spelledItems?, build_value v _ h]
    cases spelled? (stack.length + 1) v with
    | none => rfl
    | some d =>
      show (Builder.deliverContainer stack (.arr (d :: acc).reverse)).build rest = _
      rw [List.reverse_cons]
      rfl
  | v :: w :: items, _, phase, h, acc, stack, rest => by
    have hnext (d : Document) := build_items (w :: items) (by simp) .value trivial
      (d :: acc) stack rest
    rw [itemTokens?, spelledItems?, Option.bind_assoc, Option.bind_assoc]
    calc
      _ = (tokensOf? v).bind (fun ts => (itemTokens? (w :: items)).bind (fun us =>
            (⟨.array acc :: stack, phase⟩ : Builder).build
              (ts ++ .comma :: (us ++ .closeArray :: rest)))) := by
        simp only [Option.bind_map, Function.comp_def, List.append_assoc, List.cons_append]
      _ = (spelled? (stack.length + 1) v).bind (fun d =>
            (itemTokens? (w :: items)).bind (fun us =>
              (⟨.array (d :: acc) :: stack, .value⟩ : Builder).build
                (us ++ .closeArray :: rest))) :=
        bind_exchange _ fun us => build_value v _ h _ _
      _ = _ := by
        congr 1
        funext d
        rw [hnext d, Option.bind_map]
        simp only [List.reverse_cons, List.append_assoc, List.cons_append, List.nil_append,
          Function.comp_def]

theorem build_fields : (fields : List (String × Json)) → fields ≠ [] → (phase : Phase) →
    phase.takesKey → (ms : Members) → (key : Option String) → (stack : List Frame) →
    (rest : List Token) →
    (fieldTokens? fields).bind (fun ts =>
        (⟨.object (ms.map (fun m => (some m.1, m.2))).reverse key :: stack, phase⟩ :
          Builder).build (ts ++ .closeObject :: rest)) =
      (spelledFields? (stack.length + 1) fields).bind (fun more =>
        (Builder.deliverContainer stack (.obj (ms ++ more))).build rest)
  | [], hne, _, _, _, _, _, _ => absurd rfl hne
  | [(k, v)], _, phase, h, ms, key, stack, rest => by
    rw [fieldTokens?, spelledFields?, spelledFields?, Option.bind_map]
    calc
      _ = (tokensOf? v).bind (fun ts =>
            (⟨.object (ms.map (fun m => (some m.1, m.2))).reverse (some k) :: stack, .value⟩ :
              Builder).build (ts ++ .closeObject :: rest)) := by
        congr 1
        funext ts
        exact build_key h _ key stack k _
      _ = (spelled? (stack.length + 1) v).bind (fun d => (Builder.deliverContainer stack
            (ofMembers ((some k, d) :: (ms.map (fun m => (some m.1, m.2))).reverse))).build
              rest) := build_value v .value trivial _ _
      _ = _ := by
        rw [Option.bind_assoc]
        congr 1
        funext d
        rw [Option.map_some, Option.bind_some, ← ofMembers_some (ms ++ [(k, d)]), List.map_append,
          List.reverse_append]
        rfl
  | (k, v) :: e :: fields, _, phase, h, ms, key, stack, rest => by
    have hnext (d : Document) := build_fields (e :: fields) (by simp) .key trivial
      (ms ++ [(k, d)]) (some k) stack rest
    have hframe (d : Document) : (some k, d) :: (ms.map (fun m => (some m.1, m.2))).reverse =
        ((ms ++ [(k, d)]).map (fun m => (some m.1, m.2))).reverse := by simp
    rw [fieldTokens?, spelledFields?, Option.bind_assoc, Option.bind_assoc]
    calc
      _ = (tokensOf? v).bind (fun ts => (fieldTokens? (e :: fields)).bind (fun us =>
            (⟨.object (ms.map (fun m => (some m.1, m.2))).reverse (some k) :: stack, .value⟩ :
              Builder).build (ts ++ .comma :: (us ++ .closeObject :: rest)))) := by
        simp only [Option.bind_map, Function.comp_def, List.append_assoc, List.cons_append,
          build_key h]
      _ = (spelled? (stack.length + 1) v).bind (fun d =>
            (fieldTokens? (e :: fields)).bind (fun us =>
              (⟨.object ((ms ++ [(k, d)]).map (fun m => (some m.1, m.2))).reverse (some k) ::
                stack, .key⟩ : Builder).build (us ++ .closeObject :: rest))) := by
        refine bind_exchange _ fun us => (build_value v .value trivial _ _).trans ?_
        congr 1
        funext d
        rw [← hframe d]
        rfl
      _ = _ := by
        congr 1
        funext d
        rw [hnext d, Option.bind_map]
        simp only [List.append_assoc, List.cons_append, List.nil_append, Function.comp_def]

end

/-- The document of a list of tokens is what has been built when they are read. -/
theorem ofTokens?_of_build {ts : List Token} {read : Option Document}
    (h : (⟨[], .value⟩ : Builder).build ts = read.map (Builder.deliver [])) :
    ofTokens? ts = read := by
  have hb : ts.foldlM Builder.step ⟨[], .value⟩ = read.map (Builder.deliver []) := h
  rw [ofTokens?, hb]
  cases read <;> rfl

/-- The text of a value is read as the value, as far as its numbers can be read. -/
theorem parse?_render (v : Json) : parse? v.render = spelled? 0 v := by
  have h := build_value v .value trivial [] []
  rw [parse?, Json.render, String.toList_ofList, tokens?_chars]
  cases ht : tokensOf? v with
  | none =>
    rw [ht] at h
    cases hs : spelled? 0 v with
    | none => rfl
    | some d =>
      rw [List.length_nil, hs] at h
      cases h
  | some ts =>
    rw [ht, Option.bind_some, List.append_nil, List.length_nil] at h
    refine ofTokens?_of_build (h.trans ?_)
    cases spelled? 0 v <;> rfl

end Document
end MailCapture
