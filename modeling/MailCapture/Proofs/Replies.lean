import MailCapture.Proofs.Turns
import MailCapture.Store.Remote
/-!
What the calls of the operator make of the replies of an API server.  A call sends one request at
most.  A lost reply fails as lost and one that cannot be read as unreadable; a refusal of a read may
mean that there is no such object, and does where its code says so, and every other refusal fails
with what it means for the object.
-/
namespace MailCapture

namespace Reply
variable {α : Type}

def refusal? : Reply → Option Refusal
  | .received status body =>
    if 400 ≤ status ∧ status < 600 then some (Refusal.ofReply status body) else none
  | .lost _ => none

inductive Means (refused : Refusal → Except Failure α → Prop) : Reply → Except Failure α → Prop
  | lost (text : String) : Means refused (.lost text) (.error (.transport text))
  | refused {reply : Reply} {r : Refusal} {a : Except Failure α} (hr : reply.refusal? = some r)
      (ha : refused r a) : Means refused reply a
  | unreadable {status : UInt16} {body : String}
      (hr : (Reply.received status body).refusal? = none) :
      Means refused (.received status body) (.error .unreadableReply)
  | value {status : UInt16} {body : String} (hr : (Reply.received status body).refusal? = none)
      (v : α) : Means refused (.received status body) (.ok v)

theorem Means.of_refusal {refused : Refusal → Except Failure α → Prop} {reply : Reply}
    {a : Except Failure α} (h : reply.Means refused a) {r : Refusal}
    (hr : reply.refusal? = some r) : refused r a := by
  cases h with
  | lost text => cases hr
  | refused hr' ha =>
    obtain rfl := Option.some.inj (hr'.symm.trans hr)
    exact ha
  | unreadable hnone => cases hnone.symm.trans hr
  | value hnone v => cases hnone.symm.trans hr

theorem means_read (reply : Reply) (decode : Document → Option α) :
    reply.Means (fun r a => a = .error (.refused r)) (reply.read decode) := by
  cases reply with
  | lost text => exact .lost text
  | received status body =>
    by_cases hs : 400 ≤ status ∧ status < 600
    · have hr : (received status body).refusal? = some (Refusal.ofReply status body) := if_pos hs
      rw [read, if_pos hs]
      exact .refused hr rfl
    · have hr : (received status body).refusal? = none := if_neg hs
      rw [read, if_neg hs]
      cases (Document.parse? body).bind decode with
      | none => exact .unreadable hr
      | some v => exact .value hr v

end Reply

namespace Client
variable {α β : Type} {refused : Refusal → Except Failure α → Prop}

/-- Whether a client sends one request and makes of the reply what it may, or fails without one
because the request cannot be written down. -/
def Sends (refused : Refusal → Except Failure α → Prop) (c : Client α) : Prop :=
  ∀ exchanges a, c.run.Runs exchanges a →
    (exchanges = [] ∧ a = .error .badRequest) ∨
      ∃ request reply, exchanges = [⟨.send request, reply⟩] ∧ Reply.Means refused reply a

theorem fail_badRequest_sends : (fail .badRequest : Client α).Sends refused := by
  rintro exchanges a ⟨rfl, rfl⟩
  exact Or.inl ⟨rfl, rfl⟩

theorem send_sends (method : HttpMethod) (uri : String) (body : Option Json)
    (decode : Document → Option α) :
    (send method uri body decode).Sends (fun r a => a = .error (.refused r)) := by
  unfold send
  cases Address.sent? uri with
  | none => exact fail_badRequest_sends
  | some sent =>
    rintro exchanges a ⟨reply, rest, rfl, rfl, rfl⟩
    exact Or.inr ⟨_, reply, rfl, Reply.means_read reply decode⟩

theorem sendNamed_sends (method : HttpMethod) (path name ending : String) (body : Option Json)
    (decode : Document → Option α) :
    (sendNamed method path name ending body decode).Sends (fun r a => a = .error (.refused r)) := by
  unfold sendNamed
  split
  · exact fail_badRequest_sends
  · exact send_sends method _ body decode

/-- A client that deals with the refusals of another one, and lets all else pass. -/
theorem Sends.handled {refused' : Refusal → Except Failure β → Prop} {c : Client α}
    (h : c.Sends refused) {g : Except Failure α → Except Failure β}
    (hvalue : ∀ v, ∃ w, g (.ok v) = .ok w)
    (hfailed : ∀ f, (∀ r, f ≠ .refused r) → g (.error f) = .error f)
    (hrefused : ∀ r a, refused r a → refused' r (g a)) :
    Sends refused' (ExceptT.mk (c.run.bind (fun a => .done (g a)))) := by
  intro exchanges b hb
  obtain ⟨first, a, rest, rfl, hfirst, rfl, rfl⟩ := (Prog.runs_bind _ _ _ _).1 hb
  rw [List.append_nil]
  rcases h first a hfirst with ⟨rfl, rfl⟩ | ⟨request, reply, rfl, hmeans⟩
  · exact Or.inl ⟨rfl, hfailed _ (by simp)⟩
  · refine Or.inr ⟨request, reply, rfl, ?_⟩
    cases hmeans with
    | lost text =>
      rw [hfailed _ (by simp)]
      exact .lost text
    | refused hr ha => exact .refused hr (hrefused _ _ ha)
    | unreadable hr =>
      rw [hfailed _ (by simp)]
      exact .unreadable hr
    | value hr v =>
      obtain ⟨w, hw⟩ := hvalue v
      rw [hw]
      exact .value hr w

theorem Sends.mono {refused' : Refusal → Except Failure α → Prop} {c : Client α}
    (h : c.Sends refused) (himp : ∀ r a, refused r a → refused' r a) : c.Sends refused' := by
  intro exchanges a ha
  rcases h exchanges a ha with hunsent | ⟨request, reply, hsent, hmeans⟩
  · exact Or.inl hunsent
  · refine Or.inr ⟨request, reply, hsent, ?_⟩
    cases hmeans with
    | lost text => exact .lost text
    | refused hr ha => exact .refused hr (himp _ _ ha)
    | unreadable hr => exact .unreadable hr
    | value hr v => exact .value hr v

def found : Except Failure α → Except Failure (Option α)
  | .ok a => .ok (some a)
  | .error (.refused r) => if r.reason = "NotFound" then .ok none else .error (.refused r)
  | .error f => .error f

theorem found_error {f : Failure} (h : ∀ r, f ≠ .refused r) :
    found (.error f : Except Failure α) = .error f := by
  cases f <;> first | rfl | exact absurd rfl (h _)

theorem find_eq (path name : String) (decode : Document → Option α) :
    find path name decode = ExceptT.mk
      ((sendNamed .get path name "" none decode).run.bind (fun a => .done (found a))) := by
  unfold find
  congr 2
  funext a
  cases a with
  | ok a => rfl
  | error f => cases f <;> first | rfl | (simp only [found]; split <;> rfl)

end Client

namespace Remote
variable {α : Type}

def absent? : (c : StoreCall) → Option c.Answer
  | .get _ _ => some none
  | .getInstance _ => some none
  | _ => none

inductive Refused (c : StoreCall) (r : Refusal) : Except Failure c.Answer → Prop
  | absent {a : c.Answer} (ha : absent? c = some a) : Refused c r (.ok a)
  | failed (what : String) (hc : absent? c = none ∨ r.code ≠ 404) :
      Refused c r (.error (.about what (.refused r)))

def unlessUnknown (what : String) : Except Failure (Option α) → Except Failure (Option α)
  | .error (.refused r) =>
    if r.code = 404 then .ok none else .error (Failure.about what (.refused r))
  | a => a

theorem absentIfUnknown_eq (what : String) (c : Client (Option α)) :
    absentIfUnknown what c =
      ExceptT.mk (c.run.bind (fun a => .done (unlessUnknown what a))) := by
  unfold absentIfUnknown
  congr 2
  funext a
  cases a with
  | ok a => rfl
  | error f => cases f <;> first | rfl | (simp only [unlessUnknown]; split <;> rfl)

theorem Refused.eq_absent {c : StoreCall} {r : Refusal} {a : Except Failure c.Answer}
    (h : Refused c r a) (hr : r.code = 404) {v : c.Answer} (hc : absent? c = some v) :
    a = .ok v := by
  cases h with
  | absent ha => rw [Option.some.inj (ha.symm.trans hc)]
  | failed what hother =>
    rcases hother with hnone | hcode
    · cases hnone.symm.trans hc
    · exact absurd hr hcode

theorem about_sends {c : StoreCall} (what : String) {client : Client c.Answer}
    (h : client.Sends (fun r a => a = .error (.refused r))) (hc : absent? c = none) :
    (about what client).Sends (Refused c) := by
  refine h.handled (fun v => ⟨v, rfl⟩) (fun f hf => ?_) fun r a ha => ?_
  · cases f <;> first | rfl | exact absurd rfl (hf _)
  · subst ha
    exact .failed what (Or.inl hc)

theorem lookUp_sends (what path name : String) (decode : Document → Option α) :
    (absentIfUnknown what (Client.find path name decode)).Sends (fun r a =>
      a = .ok none ∨ r.code ≠ 404 ∧ a = .error (.about what (.refused r))) := by
  have hfind : (Client.find path name decode).Sends
      (fun r a => a = .ok none ∨ a = .error (.refused r)) := by
    rw [Client.find_eq]
    refine (Client.sendNamed_sends .get path name "" none decode).handled
      (fun v => ⟨some v, rfl⟩) (fun f hf => Client.found_error hf) fun r a ha => ?_
    subst ha
    by_cases hr : r.reason = "NotFound"
    · exact Or.inl (if_pos hr)
    · exact Or.inr (if_neg hr)
  rw [absentIfUnknown_eq]
  refine hfind.handled (fun v => ⟨v, rfl⟩) (fun f hf => ?_) fun r a ha => ?_
  · cases f <;> first | rfl | exact absurd rfl (hf _)
  · rcases ha with rfl | rfl
    · exact Or.inl rfl
    · by_cases hr : r.code = 404
      · exact Or.inl (if_pos hr)
      · exact Or.inr ⟨hr, if_neg hr⟩

def IsAddressed : StoreCall → Prop
  | .create kind m => ∃ key, target kind m = .ok key
  | .replace kind m => ∃ key, target kind m = .ok key
  | _ => True

/-- What every call makes of a reply. -/
theorem client_sends {c : StoreCall} (h : IsAddressed c) : (client c).Sends (Refused c) := by
  cases c with
  | get kind key =>
    refine (lookUp_sends _ _ _ _).mono fun r a ha => ?_
    rcases ha with rfl | ⟨hr, rfl⟩
    · exact .absent rfl
    · exact .failed _ (Or.inr hr)
  | getInstance key =>
    refine (lookUp_sends _ _ _ _).mono fun r a ha => ?_
    rcases ha with rfl | ⟨hr, rfl⟩
    · exact .absent rfl
    · exact .failed _ (Or.inr hr)
  | create kind m =>
    obtain ⟨key, hkey⟩ := h
    rw [client, hkey]
    exact about_sends _ (Client.send_sends _ _ _ _) rfl
  | replace kind m =>
    obtain ⟨key, hkey⟩ := h
    rw [client, hkey]
    exact about_sends _ (Client.sendNamed_sends _ _ _ _ _ _) rfl
  | delete kind key grace => exact about_sends _ (Client.sendNamed_sends _ _ _ _ _ _) rfl
  | list kind ns selector => exact about_sends _ (Client.send_sends _ _ _ _) rfl
  | replaceStatus i => exact about_sends _ (Client.sendNamed_sends _ _ _ _ _ _) rfl

/-! ### Trips -/

structure Trip where
  call : StoreCall
  exchanges : List (Prog.Turn Exchange.Answer)
  answer : Except Failure call.Answer
  made : (client call).run.Runs exchanges answer

inductive Step where
  | trip (t : Trip)
  | effect (e : Effect)

def Step.turn : Step → Turn
  | .trip t => ⟨.call t.call, t.answer⟩
  | .effect e => ⟨.emit e, ()⟩

theorem Step.exists_of_turn {s : Step} {c : StoreCall} {a : Query.Answer (.call c)}
    (h : s.turn = ⟨.call c, a⟩) : ∃ exchanges made, s = .trip ⟨c, exchanges, a, made⟩ := by
  cases s with
  | effect e => cases h
  | trip t =>
    obtain ⟨_, exchanges, _, made⟩ := t
    cases h
    exact ⟨exchanges, made, rfl⟩

def answer : (q : Query) → Prog Exchange Exchange.Answer q.Answer
  | .call c => (client c).run
  | .emit _ => .done ()

namespace Trip

def reply? (t : Trip) : Option Reply :=
  match t.exchanges with
  | ⟨.send _, reply⟩ :: _ => some reply
  | _ => none

def refusal? (t : Trip) : Option Refusal := t.reply?.bind Reply.refusal?

def code? (t : Trip) : Option UInt16 := t.refusal?.map Refusal.code

variable {t : Trip}

/-- A call comes to what its reply means, or it was not sent because it cannot be written down. -/
theorem means (h : IsAddressed t.call) : (t.reply? = none ∧ t.answer = .error .badRequest) ∨
    ∃ reply, t.reply? = some reply ∧ reply.Means (Refused t.call) t.answer := by
  have hsends := client_sends h t.exchanges t.answer t.made
  rcases hsends with ⟨hnil, hanswer⟩ | ⟨request, reply, hone, hmeans⟩
  · refine Or.inl ⟨?_, hanswer⟩
    rw [reply?, hnil]
  · refine Or.inr ⟨reply, ?_, hmeans⟩
    rw [reply?, hone]

/-- Why a call may have failed. -/
theorem failures (h : IsAddressed t.call) {f : Failure} (hf : t.answer = .error f) :
    (t.reply? = none ∧ f = .badRequest) ∨
    (∃ text, t.reply? = some (.lost text) ∧ f = .transport text) ∨
    (∃ r what, t.refusal? = some r ∧ f = .about what (.refused r)) ∨
    (t.refusal? = none ∧ f = .unreadableReply) := by
  rcases t.means h with ⟨hnone, ha⟩ | ⟨reply, hsome, hmeans⟩
  · refine Or.inl ⟨hnone, ?_⟩
    rw [ha] at hf
    cases hf
    rfl
  · rw [hf] at hmeans
    have hrefusal : t.refusal? = reply.refusal? := by rw [refusal?, hsome, Option.bind_some]
    cases hmeans with
    | lost text => exact Or.inr (Or.inl ⟨text, hsome, rfl⟩)
    | refused hr ha =>
      cases ha with
      | failed what hc => exact Or.inr (Or.inr (Or.inl ⟨_, what, hrefusal.trans hr, rfl⟩))
    | unreadable hr => exact Or.inr (Or.inr (Or.inr ⟨hrefusal.trans hr, rfl⟩))

/-- A refusal comes to what it may. -/
theorem refused (h : IsAddressed t.call) {r : Refusal} (hr : t.refusal? = some r) :
    Refused t.call r t.answer := by
  obtain ⟨reply, hreply, hrefusal⟩ := Option.bind_eq_some_iff.1 hr
  rcases t.means h with ⟨hnone, -⟩ | ⟨reply', hsome, hmeans⟩
  · rw [hnone] at hreply
    cases hreply
  · obtain rfl : reply' = reply := Option.some.inj (hsome.symm.trans hreply)
    exact hmeans.of_refusal hrefusal

end Trip

end Remote
end MailCapture
