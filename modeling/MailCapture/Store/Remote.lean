import MailCapture.Http
import MailCapture.Store
/-!
The store behind an API server: every call becomes a request, and refusals get the meaning that they
have for the operator.
-/
namespace MailCapture

namespace Failure

/-- What a refusal means for an object: gone, there already, changed by another writer, or not
acceptable. -/
def about (what : String) : Failure → Failure
  | .refused r =>
    if r.code = 404 then .notFound what
    else if r.code = 409 then
      if r.reason = "AlreadyExists" then .alreadyExists what
      else .conflict (what ++ ": " ++ r.message)
    else if r.code = 422 then .invalid (what ++ ": " ++ r.message)
    else .refused r
  | f => f

end Failure

namespace Remote
variable {α : Type}

def about (what : String) (c : Client α) : Client α :=
  ExceptT.mk (c.run.bind (fun r => .done (r.mapError (Failure.about what))))

def absentIfUnknown (what : String) (c : Client (Option α)) : Client (Option α) :=
  ExceptT.mk (c.run.bind (fun
    | .ok found => .done (.ok found)
    | .error (.refused r) =>
      if r.code = 404 then .done (.ok none) else .done (.error (Failure.about what (.refused r)))
    | .error f => .done (.error f)))

def pathOf (kind : Kind) (ns : String) : String :=
  Address.collection kind.group kind.version kind.plural ns

def recordPath (ns : String) : String :=
  Address.collection Instance.group "v1alpha1" Instance.plural ns

/-- The key at the address of a key: what stands behind a question mark or a hash mark is lost, and
a slash leads to no record.  The outer answer is none where no request can be sent. -/
def recordAt? (key : Key) : Option (Option Key) :=
  if key.name.isEmpty then none
  else (Address.pieces? (recordPath key.ns ++ "/" ++ key.name)).map (fun pieces =>
    match pieces.drop 5 with
    | [ns, plural, name] => if plural = Instance.plural then some ⟨ns, name⟩ else none
    | _ => none)

def canList (ns : String) : Bool :=
  (Address.pieces? (recordPath ns)).any (fun pieces => pieces.drop 5 = [ns, Instance.plural])

def target (kind : Kind) (m : Manifest) : Except Failure Key :=
  match m.metadata.name, m.metadata.ns with
  | none, _ => .error (.missingField (kind.name ++ ".metadata.name"))
  | some _, none => .error (.missingField (kind.name ++ ".metadata.namespace"))
  | some name, some ns => .ok ⟨ns, name⟩

def isDeletionReport (v : Document) : Option Unit := do
  let fields ← Wire.structure? ["code", "status", "message", "reason", "details"] v
  let _ ← Wire.optional fields "status"
    (Wire.choice? [("Success", ()), ("Failure", ())])
  let _ ← Wire.defaulted fields "code" Wire.uint16? 0
  let _ ← Wire.defaulted fields "message" Wire.string? ""
  let _ ← Wire.defaulted fields "reason" Wire.string? ""
  let cause (v : Document) : Option Unit := do
    let fields ← Wire.structure? ["reason", "message", "field"] v
    let _ ← Wire.defaulted fields "reason" Wire.string? ""
    let _ ← Wire.defaulted fields "message" Wire.string? ""
    let _ ← Wire.defaulted fields "field" Wire.string? ""
    return ()
  let details (v : Document) : Option Unit := do
    let fields ← Wire.structure? ["name", "group", "kind", "uid", "causes", "retryAfterSeconds"] v
    let _ ← Wire.defaulted fields "name" Wire.string? ""
    let _ ← Wire.defaulted fields "group" Wire.string? ""
    let _ ← Wire.defaulted fields "kind" Wire.string? ""
    let _ ← Wire.defaulted fields "uid" Wire.string? ""
    let _ ← Wire.defaulted fields "causes" (Wire.list? cause) []
    let _ ← Wire.defaulted fields "retryAfterSeconds" Wire.uint32? 0
    return ()
  let _ ← Wire.optional fields "details" details
  return ()

/-- The body of a successful deletion, which has to have a value: a report, or the object that is
being deleted. -/
def deleted? (v : Document) : Option Unit := do
  let value ← v.value?
  if (value.member "kind").same (.str "Status") then isDeletionReport v
  else (Manifest.read? v).map (fun _ => ())

def isListMetadata (v : Document) : Option Unit := do
  let fields ← v.members?
  let _ ← Wire.lenientText fields "continue"
  let _ ← Wire.lenient fields "remainingItemCount" Wire.int64? 0
  let _ ← Wire.lenientText fields "resourceVersion"
  let _ ← Wire.lenientText fields "selfLink"
  return ()

/-- The objects of a list; what stands beside them and the metadata has to have a value. -/
def items? (v : Document) : Option (List Manifest) := do
  let fields ← Wire.object? ["metadata", "items"] v
  let _ ← Wire.defaulted fields "metadata" isListMetadata ()
  let _ ← Document.memberValues? (fields.filter (fun m => m.1 ≠ "metadata" ∧ m.1 ≠ "items"))
  return (← Wire.required fields "items" (Wire.nullable (Wire.list? Manifest.read?))).getD []

def client : (c : StoreCall) → Client c.Answer
  | .get kind key =>
    absentIfUnknown (kind.name ++ " " ++ key.text)
      (Client.find (pathOf kind key.ns) key.name Manifest.read?)
  | .create kind m =>
    match target kind m with
    | .error f => Client.fail f
    | .ok key =>
      about (kind.name ++ " " ++ key.text)
        (Client.create (pathOf kind key.ns) m.toJson Manifest.read?)
  | .replace kind m =>
    match target kind m with
    | .error f => Client.fail f
    | .ok key =>
      about (kind.name ++ " " ++ key.text)
        (Client.replace (pathOf kind key.ns) key.name m.toJson Manifest.read?)
  | .delete kind key grace =>
    about (kind.name ++ " " ++ key.text)
      (Client.sendNamed .delete (pathOf kind key.ns) key.name "?"
        (some (.obj [("gracePeriodSeconds", .int grace.toNat)])) deleted?)
  | .list kind ns selector =>
    about (kind.name ++ " list in " ++ ns)
      (Client.send .get
        (pathOf kind ns ++ "?&labelSelector=" ++ Address.formEncoded selector) none items?)
  | .getInstance key =>
    absentIfUnknown ("MailhogInstance " ++ key.text)
      (Client.find (recordPath key.ns) key.name Instance.read?)
  | .replaceStatus i =>
    about ("MailhogInstance " ++ i.key.text ++ " status")
      (Client.sendNamed .put (recordPath i.key.ns) i.name "/status?" (some i.toJson)
        Instance.read?)

end Remote
end MailCapture
