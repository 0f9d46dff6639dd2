import MailCapture.Proofs.Environment
import MailCapture.Proofs.Quiescence
import MailCapture.Proofs.Unserved
/-!
The address at which the web interface is published.  It is told by relations over what the routers
and the balancers report: the entry that counts is the first one that is accepted.  The address is
the one that the route or the ingress of the record asks for, and a record whose exposing object is
absent or not accepted has none.
-/
namespace MailCapture

def webSuffix (path : String) : String := if path = "" then "" else "/" ++ path

theorem urlOf_eq (scheme host path : String) :
    urlOf scheme host path = scheme ++ "://" ++ host ++ webSuffix path := by
  by_cases hp : path = ""
  · simp [urlOf, webSuffix, hp]
  · simp [urlOf, webSuffix, hp, String.append_assoc]

/-! ### Routes -/

def RouteIngress.Admits (e : RouteIngress) : Prop :=
  ∃ c ∈ e.conditions, c.type = "Admitted" ∧ c.status = "True"

theorem RouteIngress.isAdmitted_iff {e : RouteIngress} : e.isAdmitted = true ↔ e.Admits := by
  simp [isAdmitted, Admits]

def Route.IsAdmittedBy (r : Route) (first : RouteIngress) : Prop :=
  ∃ status before after, r.status = some status ∧ status.ingress = before ++ first :: after ∧
    first.Admits ∧ ∀ e ∈ before, ¬ e.Admits

theorem Route.isAdmittedBy_iff {r : Route} {first : RouteIngress} : r.IsAdmittedBy first ↔
    (r.status.bind fun status => status.ingress.find? RouteIngress.isAdmitted) = some first := by
  have hnot (e : RouteIngress) : e.isAdmitted = false ↔ ¬ e.Admits := by
    rw [← RouteIngress.isAdmitted_iff, Bool.not_eq_true]
  simp only [IsAdmittedBy, Option.bind_eq_some_iff, List.find?_eq_some_iff_append,
    RouteIngress.isAdmitted_iff, Bool.not_eq_true', hnot]
  constructor
  · rintro ⟨status, before, after, hs, hsplit, hfirst, hbefore⟩
    exact ⟨status, hs, hfirst, before, after, hsplit, hbefore⟩
  · rintro ⟨status, hs, hfirst, before, after, hsplit, hbefore⟩
    exact ⟨status, before, after, hs, hsplit, hfirst, hbefore⟩

theorem Route.url?_eq_some_iff {r : Route} {path url : String} : r.url? path = some url ↔
    ∃ first host, r.IsAdmittedBy first ∧ first.host = some host ∧ host ≠ "" ∧
      url = "https://" ++ host ++ webSuffix path := by
  have hscheme (host : String) : urlOf "https" host path = "https://" ++ host ++ webSuffix path :=
    urlOf_eq "https" host path
  simp only [url?, Option.bind_eq_bind, Option.pure_def, Option.bind_eq_some_iff,
    Option.filter_eq_some_iff, Option.some.injEq, hscheme, Route.isAdmittedBy_iff]
  constructor
  · rintro ⟨status, hs, first, hfirst, host, ⟨hhost, hne⟩, rfl⟩
    exact ⟨first, host, ⟨status, hs, hfirst⟩, hhost, by simpa using hne, rfl⟩
  · rintro ⟨first, host, ⟨status, hs, hfirst⟩, hhost, hne, rfl⟩
    exact ⟨status, hs, first, hfirst, host, ⟨hhost, by simpa using hne⟩, rfl⟩

/-! ### Ingresses -/

def Ingress.IsServedBy (g : Ingress) (first : Balancer) : Prop :=
  ∃ after, g.balancers = first :: after

theorem Ingress.isServedBy_iff {g : Ingress} {first : Balancer} :
    g.IsServedBy first ↔ g.balancers.head? = some first := by
  cases hb : g.balancers <;> simp [IsServedBy, hb]

/-- The host at which a balancer serves: the one that is asked for, or if none is, the name of the
balancer, or if it has none, its address. -/
inductive Balancer.Serves (b : Balancer) (asked : String) : String → Prop
  | asked (h : asked ≠ "") : b.Serves asked asked
  | hostname {host : String} (h : asked = "") (hname : b.hostname = some host) : b.Serves asked host
  | ip {host : String} (h : asked = "") (hname : b.hostname = none) (hip : b.ip = some host) :
      b.Serves asked host

theorem Balancer.serves_iff {b : Balancer} {asked host : String} : b.Serves asked host ↔
    (if asked = "" then b.hostname.orElse (fun _ => b.ip) else some asked) = some host := by
  constructor
  · rintro (h | ⟨h, hname⟩ | ⟨h, hname, hip⟩)
    · rw [if_neg h]
    · rw [if_pos h, hname]
      rfl
    · rw [if_pos h, hname]
      exact hip
  · by_cases h : asked = ""
    · rw [if_pos h]
      cases hname : b.hostname with
      | some name =>
        rintro ⟨rfl⟩
        exact .hostname h hname
      | none => exact fun hip => .ip h hname hip
    · rw [if_neg h]
      rintro ⟨rfl⟩
      exact .asked h

/-- A host is empty only if a balancer that nobody asked for a host reports the empty one. -/
theorem Balancer.Serves.host_eq_empty_iff {b : Balancer} {asked host : String}
    (h : b.Serves asked host) : host = "" ↔
      asked = "" ∧ (b.hostname = some "" ∨ b.hostname = none ∧ b.ip = some "") := by
  cases h with
  | asked h => simp [h]
  | hostname h hname => simp [h, hname]
  | ip h hname hip => simp [h, hname, hip]

def webScheme (secret : String) : String := if secret = "" then "http" else "https"

theorem webScheme_eq_or (secret : String) :
    webScheme secret = "http" ∨ webScheme secret = "https" := by
  unfold webScheme
  split
  · exact Or.inl rfl
  · exact Or.inr rfl

theorem Ingress.url?_eq_some_iff {g : Ingress} {s : Spec} {url : String} : g.url? s = some url ↔
    ∃ first host, g.IsServedBy first ∧ first.Serves s.settings.ingress.host host ∧
      url = webScheme s.settings.ingress.tlsSecretName ++ "://" ++ host ++
        webSuffix s.settings.webPath := by
  have heq : g.url? s = g.balancers.head?.bind fun first =>
      (if s.settings.ingress.host = "" then first.hostname.orElse (fun _ => first.ip)
        else some s.settings.ingress.host).bind fun host =>
          some (webScheme s.settings.ingress.tlsSecretName ++ "://" ++ host ++
            webSuffix s.settings.webPath) := by
    simp only [url?, String.isEmpty_iff, urlOf_eq]
    by_cases hasked : s.settings.ingress.host = ""
    · simp only [if_pos hasked]
      rfl
    · simp only [if_neg hasked]
      rfl
  simp only [heq, Option.bind_eq_some_iff, Option.some.injEq, isServedBy_iff, Balancer.serves_iff]
  constructor
  · rintro ⟨first, hfirst, host, hhost, rfl⟩
    exact ⟨first, host, hfirst, hhost, rfl⟩
  · rintro ⟨first, host, hfirst, hhost, rfl⟩
    exact ⟨first, hfirst, host, hhost, rfl⟩

/-- A balancer that offers a name or an address serves at some host, and so does any balancer where
a host is asked for. -/
theorem Balancer.exists_serves {b : Balancer} {asked : String}
    (h : asked ≠ "" ∨ b.hostname.isSome = true ∨ b.ip.isSome = true) :
    ∃ host, b.Serves asked host := by
  by_cases ha : asked = ""
  · cases hname : b.hostname with
    | some name => exact ⟨name, .hostname ha hname⟩
    | none =>
      obtain ⟨ip, hip⟩ := Option.isSome_iff_exists.1 (by simpa [ha, hname] using h)
      exact ⟨ip, .ip ha hname hip⟩
  · exact ⟨asked, .asked ha⟩

/-- The address of an admitted route always has a host.  The one of an ingress has a host unless
none is asked for and its first balancer reports the empty text for its name, or for its address
while it has no name.  Whoever offers a host is published. -/
theorem urls_have_hosts (r : Route) (g : Ingress) (s : Spec) (path : String) :
    (∀ url, r.url? path = some url ↔ ∃ first host, r.IsAdmittedBy first ∧
      first.host = some host ∧ host ≠ "" ∧ url = "https://" ++ host ++ webSuffix path) ∧
    (∀ url, g.url? s = some url → ∃ first scheme host, g.IsServedBy first ∧
      (scheme = "http" ∨ scheme = "https") ∧
      url = scheme ++ "://" ++ host ++ webSuffix s.settings.webPath ∧
      (host = s.settings.ingress.host ∨ first.hostname = some host ∨ first.ip = some host) ∧
      (host = "" ↔ s.settings.ingress.host = "" ∧
        (first.hostname = some "" ∨ first.hostname = none ∧ first.ip = some ""))) ∧
    ∀ first, g.IsServedBy first → (s.settings.ingress.host ≠ "" ∨
        first.hostname.isSome = true ∨ first.ip.isSome = true) → (g.url? s).isSome = true := by
  refine ⟨fun url => Route.url?_eq_some_iff, fun url hurl => ?_, fun first hfirst hoffer => ?_⟩
  · obtain ⟨first, host, hfirst, hserves, rfl⟩ := Ingress.url?_eq_some_iff.1 hurl
    refine ⟨first, _, host, hfirst, webScheme_eq_or _, rfl, ?_, hserves.host_eq_empty_iff⟩
    cases hserves with
    | asked h => exact Or.inl rfl
    | hostname h hname => exact Or.inr (Or.inl hname)
    | ip h hname hip => exact Or.inr (Or.inr hip)
  · obtain ⟨host, hserves⟩ := Balancer.exists_serves hoffer
    exact Option.isSome_iff_exists.2
      ⟨_, Ingress.url?_eq_some_iff.2 ⟨first, host, hfirst, hserves, rfl⟩⟩

theorem urls_have_hosts_served :
    let route : Route := {
      metadata := {}, spec := { target := ⟨"Service", "mh", none⟩ }
      status := some { ingress := [{ host := some "old" },
        { host := some "mh.apps", conditions := [⟨"Admitted", "True"⟩] }] } }
    let balancer : Balancer := ⟨none, some "10.0.0.7"⟩
    let ingress : Ingress := ⟨{}, [balancer, ⟨some "other", none⟩]⟩
    let spec : Spec := { settings := { webPath := "mail" } }
    (∃ first host, route.IsAdmittedBy first ∧ first.host = some host ∧ host ≠ "" ∧
      "https://mh.apps/mail" = "https://" ++ host ++ webSuffix "mail") ∧
    (ingress.url? spec).isSome = true ∧
    ∃ first scheme host, ingress.IsServedBy first ∧ (scheme = "http" ∨ scheme = "https") ∧
      "http://10.0.0.7/mail" = scheme ++ "://" ++ host ++ webSuffix "mail" ∧
      (host = "" ∨ first.hostname = some host ∨ first.ip = some host) ∧
      (host = "" ↔ "" = "" ∧
        (first.hostname = some "" ∨ first.hostname = none ∧ first.ip = some "")) := by
  intro route balancer ingress spec
  obtain ⟨hroute, hingress, hoffer⟩ := urls_have_hosts route ingress spec "mail"
  exact ⟨(hroute "https://mh.apps/mail").1 (by decide),
    hoffer balancer ⟨_, rfl⟩ (Or.inr (Or.inr rfl)), hingress "http://10.0.0.7/mail" (by decide)⟩

/-- A balancer with an empty name and an address is published without a host. -/
theorem ingress_url_without_host :
    let balancer : Balancer := ⟨some "", some "10.0.0.7"⟩
    let ingress : Ingress := ⟨{}, [balancer]⟩
    let spec : Spec := {}
    ingress.IsServedBy balancer ∧ ingress.url? spec = some "http://" ∧
      ∀ scheme host, host = spec.settings.ingress.host ∨ balancer.hostname = some host ∨
          balancer.ip = some host → host ≠ "" →
        "http://" ≠ scheme ++ "://" ++ host ++ webSuffix spec.settings.webPath := by
  intro balancer ingress spec
  refine ⟨⟨[], rfl⟩, by decide, fun scheme host hhost hne heq => ?_⟩
  have hip : host = "10.0.0.7" := by
    rcases hhost with rfl | hname | hip
    · exact absurd rfl hne
    · exact absurd (Option.some.inj hname).symm hne
    · exact (Option.some.inj hip).symm
  subst hip
  have hlength := congrArg String.length heq
  simp only [String.length_append] at hlength
  have hsuffix : ("://" : String).length + ("10.0.0.7" : String).length = 11 := rfl
  have htotal : ("http://" : String).length = 7 := rfl
  omega

/-! ### The exposing object -/

namespace Instance

def IsRouteAddress (i : Instance) (r : Route) (url : String) : Prop :=
  ∃ first host, r.IsAdmittedBy first ∧ first.host = some host ∧
    url = "https://" ++ host ++ i.route.spec.path.getD ""

/-- An address is the one that the ingress of a record asks for: encrypted if the ingress is, at the
host of its rule if that has one and else at what the first balancer reports, and at its path, where
a sole slash is left out. -/
def IsIngressAddress (i : Instance) (g : Ingress) (url : String) : Prop :=
  ∃ first scheme host, g.IsServedBy first ∧
    url = scheme ++ "://" ++ host ++
      (if i.ingress.rule.path = "/" then "" else i.ingress.rule.path) ∧
    (scheme = "http" ∨ scheme = "https") ∧ (scheme = "https" ↔ i.ingress.tls.isSome = true) ∧
    (∀ ruled, i.ingress.rule.host = some ruled → host = ruled) ∧
    (i.ingress.rule.host = none → first.hostname = some host ∨ first.ip = some host)

theorem route_path (i : Instance) :
    i.route.spec.path.getD "" = webSuffix i.spec.settings.webPath := by
  show ((textUnlessEmpty i.spec.settings.webPath).map ("/" ++ ·)).getD "" = _
  by_cases hp : i.spec.settings.webPath = ""
  · simp [textUnlessEmpty, webSuffix, hp]
  · simp [textUnlessEmpty, webSuffix, hp]

theorem ingress_path (i : Instance) :
    (if i.ingress.rule.path = "/" then "" else i.ingress.rule.path) =
      webSuffix i.spec.settings.webPath := by
  have hpath : i.ingress.rule.path = "/" ↔ i.spec.settings.webPath = "" := by
    show "/" ++ i.spec.settings.webPath = "/" ↔ _
    rw [← String.toList_inj, ← String.toList_inj]
    simp
  unfold webSuffix
  by_cases hp : i.spec.settings.webPath = ""
  · rw [if_pos (hpath.2 hp), if_pos hp]
  · rw [if_neg (hp ∘ hpath.1), if_neg hp]
    rfl

theorem isRouteAddress_of_url? {i : Instance} {r : Route} {url : String}
    (h : r.url? i.spec.settings.webPath = some url) : i.IsRouteAddress r url := by
  obtain ⟨first, host, hfirst, hhost, -, rfl⟩ := Route.url?_eq_some_iff.1 h
  exact ⟨first, host, hfirst, hhost, by rw [route_path]⟩

theorem isIngressAddress_of_url? {i : Instance} {g : Ingress} {url : String}
    (hurl : g.url? i.spec = some url) : i.IsIngressAddress g url := by
  obtain ⟨first, host, hfirst, hserves, rfl⟩ := Ingress.url?_eq_some_iff.1 hurl
  have htls : i.ingress.tls.isSome =
      (textUnlessEmpty i.spec.settings.ingress.tlsSecretName).isSome := Option.isSome_map
  have hrule : i.ingress.rule.host = textUnlessEmpty i.spec.settings.ingress.host := rfl
  refine ⟨first, _, host, hfirst, by rw [ingress_path], webScheme_eq_or _, ?_, ?_, ?_⟩
  · rw [htls]
    by_cases hsecret : i.spec.settings.ingress.tlsSecretName = ""
    · simp [webScheme, textUnlessEmpty, hsecret]
    · simp [webScheme, textUnlessEmpty, hsecret]
  · intro ruled hruled
    rw [hrule, textUnlessEmpty_eq_some] at hruled
    obtain ⟨rfl, hne⟩ := hruled
    cases hserves with
    | asked h => rfl
    | hostname h _ => exact absurd h hne
    | ip h _ _ => exact absurd h hne
  · intro hnone
    cases hserves with
    | asked hasked => exact absurd (by simpa [hrule, textUnlessEmpty] using hnone) hasked
    | hostname h hname => exact Or.inl hname
    | ip h hname hip => exact Or.inr hip

inductive IsPublishedIn (i : Instance) (turns : List Turn) (url : String) : Prop
  | route (m : Manifest) (r : Route) (hinlet : i.spec.inlet = .route)
      (hread : turns.getLast? = some ⟨.call (.get .route i.key), .ok (some m)⟩)
      (hr : Route.ofManifest? m = some r) (h : i.IsRouteAddress r url)
  | ingress (m : Manifest) (g : Ingress) (hinlet : i.spec.inlet = .ingress)
      (hread : turns.getLast? = some ⟨.call (.get .ingress i.key), .ok (some m)⟩)
      (hg : Ingress.ofManifest? m = some g) (h : i.IsIngressAddress g url)

theorem IsPublishedIn.append {i : Instance} {turns : List Turn} {url : String}
    (before : List Turn) (h : i.IsPublishedIn turns url) :
    i.IsPublishedIn (before ++ turns) url := by
  cases h with
  | route m r hinlet hread hr h => exact .route m r hinlet (by simp [hread]) hr h
  | ingress m g hinlet hread hg h => exact .ingress m g hinlet (by simp [hread]) hg h

variable {i : Instance}

/-- What is shown of an object that was read, if it can be read as one of its kind. -/
theorem shown_published {α : Type} (read : Manifest → Option α) (url : α → Option String)
    (P : List Turn → String → Prop) (found : Option Manifest)
    (h : ∀ m a, found = some m → read m = some a → ∀ text, url a = some text → P [] text) :
    (match found with
      | none => (pure none : Action (Option String))
      | some m => do return url (← decoded (read m))).Ensures
        (fun turns r => ∀ text, r = Except.ok (some text) → P turns text) := by
  cases found with
  | none => simp
  | some m =>
    show (decoded (read m) >>= fun a => pure (url a) : Action (Option String)).Ensures _
    cases ha : read m with
    | none => simp [decoded]
    | some a => simpa [decoded] using h m a rfl ha

theorem exposureUrl_published : i.exposureUrl.Ensures (fun turns r =>
    ∀ url, r = .ok (some url) → i.IsPublishedIn turns url) := by
  unfold exposureUrl
  cases hi : i.spec.inlet with
  | closed => simp
  | route =>
    refine (Action.ensures_call_bind _ _).2 ⟨by simp, fun found => ?_⟩
    refine shown_published Route.ofManifest? (·.url? i.spec.settings.webPath)
      (fun turns => i.IsPublishedIn (⟨.call (.get .route i.key), .ok found⟩ :: turns)) found ?_
    rintro m r rfl hr url hurl
    exact .route m r hi rfl hr (isRouteAddress_of_url? hurl)
  | ingress =>
    refine (Action.ensures_call_bind _ _).2 ⟨by simp, fun found => ?_⟩
    refine shown_published Ingress.ofManifest? (·.url? i.spec)
      (fun turns => i.IsPublishedIn (⟨.call (.get .ingress i.key), .ok found⟩ :: turns)) found ?_
    rintro m g rfl hg url hurl
    exact .ingress m g hi rfl hg (isIngressAddress_of_url? hurl)

theorem computeStatus_published : i.computeStatus.Ensures (fun turns r =>
    ∀ status url, r = .ok status → status.url = some url → i.IsPublishedIn turns url) := by
  unfold computeStatus
  refine (Action.ensures_call_bind _ _).2 ⟨by simp, fun found => ?_⟩
  cases found.mapM Pod.ofManifest? with
  | none => exact (Action.ensures_fail_bind _ _).2 (by simp)
  | some pods =>
    show (i.exposureUrl >>= fun url => pure (i.statusOf pods url) : Action Status).Ensures _
    refine exposureUrl_published.bind (by simp) fun turns shown h => ?_
    rw [Action.ensures_pure, List.append_nil]
    rintro _ url ⟨rfl⟩ hurl
    exact (h url (congrArg _ hurl)).append [_]

end Instance

def Contents.IsExposed (c : Contents) (i : Instance) : Prop :=
  match i.spec.inlet with
  | .closed => False
  | .route => ∃ m r first, c.object? .route i.key = some m ∧ Route.ofManifest? m = some r ∧
      r.IsAdmittedBy first
  | .ingress => ∃ m g first, c.object? .ingress i.key = some m ∧ Ingress.ofManifest? m = some g ∧
      g.IsServedBy first

theorem Contents.isExposed_of_address? {c : Contents} {i : Instance} {url : String}
    (h : c.address? i = some url) : c.IsExposed i := by
  unfold address? at h
  unfold IsExposed
  cases hi : i.spec.inlet with
  | closed =>
    rw [hi] at h
    cases h
  | route =>
    simp only [hi, Option.bind_eq_some_iff] at h
    obtain ⟨r, ⟨m, hm, hr⟩, hurl⟩ := h
    obtain ⟨first, _, hfirst, _⟩ := Route.url?_eq_some_iff.1 hurl
    exact ⟨m, r, first, hm, hr, hfirst⟩
  | ingress =>
    simp only [hi, Option.bind_eq_some_iff] at h
    obtain ⟨g, ⟨m, hm, hg⟩, hurl⟩ := h
    obtain ⟨first, _, hfirst, _⟩ := Ingress.url?_eq_some_iff.1 hurl
    exact ⟨m, g, first, hm, hg, hfirst⟩

/-- A published address is the one that the record's own route or ingress asks for, at the host that
was accepted; it is read off the stored object in every run, and a record that is not exposed has
none. -/
theorem published_addresses (i : Instance) :
    (∀ r url, r.url? i.spec.settings.webPath = some url → i.IsRouteAddress r url) ∧
    (∀ g url, g.url? i.spec = some url → i.IsIngressAddress g url) ∧
    (∀ turns status url, i.computeStatus.run.Runs turns (.ok status) → status.url = some url →
      i.IsPublishedIn turns url) ∧
    ∀ (σ : Type) (w : Surroundings σ) (s : σ), w.IsSequential → (w.contents s).Decodes i →
      ∃ status, (i.computeStatus.exec w s).1 = .ok status ∧
        (¬ (w.contents s).IsExposed i → status.url = none) := by
  refine ⟨fun r url => Instance.isRouteAddress_of_url?, fun g url =>
    Instance.isIngressAddress_of_url?, fun turns status url hruns hurl =>
      Instance.computeStatus_published turns _ hruns status url rfl hurl, fun σ w s hw hd => ?_⟩
  obtain ⟨t, -, hcompute⟩ := Instance.does_computeStatus hw hd
  refine ⟨(w.contents s).statusOf i, by rw [hcompute.exec], fun hnot => ?_⟩
  rw [Option.eq_none_iff_forall_ne_some]
  exact fun url hurl => hnot (Contents.isExposed_of_address? hurl)

/-- A record with an encrypted ingress: a balancer serves it in one run, and the empty cluster does
not expose it. -/
theorem published_addresses_balanced :
    let record : Instance := ⟨{ name := some "mh", ns := some "mail" },
      { inlet := .ingress, settings := { webPath := "ui", ingress := { tlsSecretName := "tls" } } },
      none⟩
    let route : Route := {
      metadata := {}, spec := { target := ⟨"Service", "mh", none⟩ }
      status := some {
        ingress := [{ host := some "mh.apps", conditions := [⟨"Admitted", "True"⟩] }] } }
    let ingress : Ingress := ⟨{}, [⟨some "lb", none⟩]⟩
    let found : Manifest := ⟨none, {}, [("status", .obj [("loadBalancer",
      .obj [("ingress", .arr [.obj [("hostname", .str "lb")]])])])]⟩
    let turns : List Turn := [⟨.call (.list .pod "mail" record.labelSelector), .ok []⟩,
      ⟨.call (.get .ingress record.key), .ok (some found)⟩]
    let cluster : Cluster := {}
    record.IsRouteAddress route "https://mh.apps/ui" ∧
      record.IsIngressAddress ingress "https://lb/ui" ∧
      record.IsPublishedIn turns "https://lb/ui" ∧
      ∃ status, (record.computeStatus.exec Cluster.surroundings cluster).1 = .ok status ∧
        status.url = none := by
  intro record route ingress found turns cluster
  obtain ⟨hroute, hingress, hruns, hstores⟩ := published_addresses record
  have hread : Ingress.ofManifest? found = some ingress := rfl
  have hurl : ingress.url? record.spec = some "https://lb/ui" := by decide
  have hdecoded : (Instance.decoded (Ingress.ofManifest? found) >>= fun g =>
      pure (g.url? record.spec) : Action (Option String)).Yields [] (some "https://lb/ui") := by
    rw [hread, ← hurl]
    exact ⟨rfl, rfl⟩
  have hshown : record.exposureUrl.Yields [⟨.call (.get .ingress record.key), .ok (some found)⟩]
      (some "https://lb/ui") :=
    (Action.yields_call (.get .ingress record.key) (some found)).bind hdecoded
  have hstatus : (pure (record.statusOf [] (some "https://lb/ui")) : Action Status).Yields []
      (record.statusOf [] (some "https://lb/ui")) := ⟨rfl, rfl⟩
  have hrun : record.computeStatus.Yields turns (record.statusOf [] (some "https://lb/ui")) :=
    (Action.yields_call (.list .pod "mail" record.labelSelector) []).bind (hshown.bind hstatus)
  have hdecodes : (Cluster.surroundings.contents cluster).Decodes record :=
    ⟨by decide, fun hi => (by cases hi), fun _ m hm => (by cases hm)⟩
  obtain ⟨status, hcomputed, hnone⟩ :=
    hstores Cluster Cluster.surroundings cluster Cluster.surroundings_isSequential hdecodes
  refine ⟨hroute route _ (by decide), hingress ingress _ (by decide),
    hruns turns _ _ hrun rfl, status, hcomputed, hnone ?_⟩
  rintro ⟨m, g, first, hm, -⟩
  cases hm

end MailCapture
