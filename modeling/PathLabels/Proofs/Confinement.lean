import PathLabels.Proofs.Addresses
import PathLabels.Proofs.Deliveries
import PathLabels.Proofs.RepositoryText

/-!
# Where requests go

A repository is written into an address as it is, and the address is read by rules of its own. So
what was one part of a name can end the path, or stand for the place above it. Whether the requests
of a client reach the labels of its repository depends on this alone: they do if the owner and the
name are plain, and if one of them is not, none does. In either case they go to the interface that
the client was made for.
-/

namespace PathLabels

open Http

/-! ## Labels of pull requests -/

namespace TrackerCall

/-- The pull request that a call is about. -/
def pr : TrackerCall → Nat
  | list pr => pr
  | add pr _ => pr

def method : TrackerCall → Method
  | list _ => .get
  | add _ _ => .post

/-- The query that a call has; labels are listed a hundred at a time. -/
def query? : TrackerCall → Option String
  | list _ => some "per_page=100"
  | add _ _ => none

/-- What stands behind the path. -/
def queryText : TrackerCall → String
  | list _ => "?per_page=100"
  | add _ _ => ""

end TrackerCall

namespace Repository

/-- The parts of the path to the labels of a pull request. -/
def labelsParts (r : Repository) (pr : Nat) : List String :=
  ["repos", r.owner, r.name, "issues", toString pr, "labels"]

/-- Whether both parts of a name stand for themselves in a path. -/
def IsPlain (r : Repository) : Prop := Url.IsPlain r.owner.toList ∧ Url.IsPlain r.name.toList

instance (r : Repository) : Decidable r.IsPlain := inferInstanceAs (Decidable (_ ∧ _))

/-- A path leads to the labels of a pull request: its segments stand for the parts of that path. -/
def HasLabelsAt (r : Repository) (pr : Nat) (path : UrlPath) : Prop :=
  ∃ segments, path = .segments segments
    ∧ segments.map (fun segment => Percent.decode segment.toList)
      = (r.labelsParts pr).map String.toList

/-- An address is that of the labels which a call is about, with the query of the call. -/
structure IsAddressed (r : Repository) (call : TrackerCall) (url : Url) : Prop where
  path : r.HasLabelsAt call.pr url.path
  query : url.query = call.query?

theorem toString_injective {n m : Nat} (h : toString n = toString m) : n = m := by
  have hdigits : Nat.toDigits 10 n = Nat.toDigits 10 m := by
    rw [← Nat.toList_repr, ← Nat.toList_repr]
    exact congrArg String.toList h
  have hback (k : Nat) : Nat.ofDigitChars 10 (Nat.toDigits 10 k) 0 = k :=
    Nat.ofDigitChars_toDigits (by decide) (by decide)
  rw [← hback n, hdigits, hback]

theorem labelsParts_injective {r r' : Repository} {pr pr' : Nat}
    (h : r.labelsParts pr = r'.labelsParts pr') : r = r' ∧ pr = pr' := by
  simp only [labelsParts, List.cons.injEq, and_true, true_and] at h
  obtain ⟨howner, hname, hpr⟩ := h
  refine ⟨?_, toString_injective hpr⟩
  cases r
  cases r'
  exact congrArg₂ Repository.mk howner hname

theorem hasLabelsAt_segments {r : Repository} {pr : Nat} {segments : List String} :
    r.HasLabelsAt pr (.segments segments)
      ↔ segments.map (fun segment => Percent.decode segment.toList)
        = (r.labelsParts pr).map String.toList := by
  constructor
  · rintro ⟨_, ⟨⟩, hparts⟩
    exact hparts
  · exact fun hparts => ⟨segments, rfl, hparts⟩

/-- **No path leads to the labels of two pull requests.** -/
theorem HasLabelsAt.unique {r r' : Repository} {pr pr' : Nat} {path : UrlPath}
    (h : r.HasLabelsAt pr path) (h' : r'.HasLabelsAt pr' path) : r = r' ∧ pr = pr' := by
  obtain ⟨segments, hpath, hparts⟩ := h
  obtain ⟨segments', hpath', hparts'⟩ := h'
  cases hpath.symm.trans hpath'
  have hinjective : Function.Injective String.toList := fun _ _ heq => String.toList_inj.mp heq
  exact labelsParts_injective (hinjective.list_map (hparts.symm.trans hparts'))

/-- A number has digits and nothing else. -/
theorem not_mem_toString {c : Char} (hc : c.isDigit = false) (n : Nat) :
    c ∉ (toString n).toList := by
  intro hmem
  have hdigit : c ∈ Nat.toDigits 10 n := Nat.toList_repr ▸ hmem
  rw [Nat.isDigit_of_mem_toDigits (by decide) (by decide) hdigit] at hc
  cases hc

theorem isPlain_toString (n : Nat) : Url.IsPlain (toString n).toList := by
  have hmarks : ∀ c ∈ Url.marks, c.isDigit = false := by decide
  refine ⟨fun c hc hmark => not_mem_toString (hmarks c hmark) n hc, ⟨?_, ?_⟩,
    Percent.decode_of_not_mem (not_mem_toString rfl n)⟩
  · exact fun heq => not_mem_toString (c := '.') rfl n (heq ▸ List.mem_cons_self)
  · exact fun heq => not_mem_toString (c := '.') rfl n (heq ▸ List.mem_cons_self)

theorem slash_not_mem_of_ofText? {text : String} {r : Repository} (h : ofText? text = some r) :
    '/' ∉ r.owner.toList ∧ '/' ∉ r.name.toList :=
  (splitOn_eq_pair_iff.mp (ofText?_eq_some_iff.mp h).1).2

theorem ofText?_of_parse {text : String} {r : Repository} (h : parse text = .ok r) :
    ofText? text = some r :=
  parse_eq_ok_iff_ofText?.mp h

variable {r : Repository}

theorem slash_not_mem_labelsParts (howner : '/' ∉ r.owner.toList) (hname : '/' ∉ r.name.toList)
    (pr : Nat) : ∀ part ∈ (r.labelsParts pr).map String.toList, '/' ∉ part := by
  have hpr : '/' ∉ (toString pr).toList := not_mem_toString rfl pr
  simp only [labelsParts, List.map_cons, List.map_nil, List.forall_mem_cons]
  exact ⟨by decide, howner, hname, by decide, hpr, by decide, List.forall_mem_nil _⟩

/-- The text behind an interface has no blank at its end. -/
theorem lt_of_mem_getLast? (r : Repository) (call : TrackerCall) :
    ∀ c ∈ ('/' :: (['/'].intercalate ((r.labelsParts call.pr).map String.toList)
      ++ call.queryText.toList)).getLast?, 0x20 < c.toNat := by
  have hends : ∃ front, '/' :: (['/'].intercalate ((r.labelsParts call.pr).map String.toList)
      ++ call.queryText.toList) = front ++ ("labels".toList ++ call.queryText.toList) := by
    refine ⟨'/' :: "repos/".toList ++ r.owner.toList ++ '/' :: r.name.toList
      ++ "/issues/".toList ++ (toString call.pr).toList ++ ['/'], ?_⟩
    simp [labelsParts]
  obtain ⟨front, hfront⟩ := hends
  rw [hfront, List.getLast?_append_of_ne_nil _ (List.append_ne_nil_of_left_ne_nil (by decide) _)]
  cases call with
  | list pr =>
    show ∀ c ∈ ("labels".toList ++ "?per_page=100".toList).getLast?, 0x20 < c.toNat
    decide +kernel
  | add pr label =>
    show ∀ c ∈ ("labels".toList ++ "".toList).getLast?, 0x20 < c.toNat
    decide +kernel

/-- The parts that are the same for all are plain. -/
theorem isPlain_iff (pr : Nat) :
    (∀ part ∈ (r.labelsParts pr).map String.toList, Url.IsPlain part) ↔ r.IsPlain := by
  simp only [labelsParts, List.map_cons, List.map_nil, List.forall_mem_cons]
  constructor
  · rintro ⟨-, howner, hname, -⟩
    exact ⟨howner, hname⟩
  · rintro ⟨howner, hname⟩
    exact ⟨by decide +kernel, howner, hname, by decide +kernel, isPlain_toString pr,
      by decide +kernel, List.forall_mem_nil _⟩

end Repository

namespace GitHub

/-! ## The interface -/

/-- An address that has a scheme and a host, perhaps with a service, and nothing behind them but
slashes. -/
def IsOrigin (address : String) (o : Origin) : Prop :=
  ∃ n, address.toList = o.text ++ List.replicate n '/'

namespace Client

variable {target : Target} {c : Client} {o : Origin}

theorem repository_of_ofTarget (h : ofTarget target = .ok c) :
    c.repository = target.repository := by
  unfold ofTarget at h
  split at h
  · cases h
  · rw [← Except.ok.inj h]

/-- The slashes behind an origin do not count. -/
theorem baseUrl_of_ofTarget (h : ofTarget target = .ok c) (horigin : IsOrigin target.apiUrl o) :
    c.baseUrl = String.ofList o.text := by
  unfold ofTarget at h
  split at h
  · cases h
  · obtain ⟨n, hn⟩ := horigin
    rw [← Except.ok.inj h]
    dsimp only
    have hslashes : ∀ c ∈ List.replicate n '/', (c == '/') = true := by
      intro c hc
      rw [List.eq_of_mem_replicate hc]
      rfl
    have hlast : ∀ c ∈ o.text.reverse.head?, (c == '/') = false := by
      intro c hc
      rw [List.head?_reverse, Origin.getLast?_text] at hc
      refine beq_eq_false_iff_ne.mpr fun heq => ?_
      exact o.not_mem_host (by decide) (heq ▸ List.mem_of_getLast? hc)
    rw [hn, List.reverse_append, List.reverse_replicate, List.dropWhile_append_of_pos hslashes,
      Url.dropWhile_of_head? hlast, List.reverse_reverse]

/-- What a client asks its interface for, as characters. -/
theorem labelsUrl_append (hbase : c.baseUrl = String.ofList o.text) (pr : Nat) (q : String) :
    c.labelsUrl pr ++ q = String.ofList (o.text ++ '/' ::
      (['/'].intercalate ((c.repository.labelsParts pr).map String.toList) ++ q.toList)) := by
  have hself (s : String) : toString s = s := rfl
  refine String.toList_inj.mp ?_
  simp [labelsUrl, hbase, Repository.labelsParts, hself]

/-- A request that can be made goes to the web, to the address that it is for. -/
theorem of_request_ok {method : Method} {address : String} {body : Option Json.Value}
    {r : Request} (h : c.request method address body = .ok r) :
    Url.ofText? address = some r.url ∧ r.method = method
      ∧ (r.url.scheme = "http" ∨ r.url.scheme = "https") := by
  unfold request at h
  split at h
  · cases h
  · rename_i url hurl
    split at h
    · cases h
    split at h
    · cases h
    split at h
    · cases h
    · rename_i hscheme
      cases h
      refine ⟨hurl, rfl, ?_⟩
      by_contra hother
      exact hscheme (not_or.mp hother)

theorem requestOf_eq (c : Client) (call : TrackerCall) : ∃ body,
    c.requestOf call = c.request call.method (c.labelsUrl call.pr ++ call.queryText) body := by
  cases call with
  | list pr => exact ⟨none, rfl⟩
  | add pr label =>
    refine ⟨some (.object [("labels", .ofStrings [label])]), ?_⟩
    show c.requestOf (.add pr label) = c.request .post (c.labelsUrl pr ++ "") _
    rw [String.append_empty, requestOf]

/-- **A request goes to the interface of the client**, whatever the repository is, and the text
behind that is read as its path and its query. -/
theorem url_of_requestOf (hbase : c.baseUrl = String.ofList o.text) {call : TrackerCall}
    {r : Request} (h : c.requestOf call = .ok r) :
    let t := '/' :: (['/'].intercalate ((c.repository.labelsParts call.pr).map String.toList)
      ++ call.queryText.toList)
    (o.scheme = "http" ∨ o.scheme = "https") ∧ r.method = call.method
      ∧ ∃ read, Url.authority? o.scheme o.host = some read
        ∧ r.url.scheme = o.scheme ∧ r.url.host = some read.1 ∧ r.url.service = read.2
        ∧ r.url.path = .segments (Url.pathSegments true (Url.pathPart t))
        ∧ r.url.query = (Url.queryPart t).map fun q =>
            String.ofList (Percent.encode Percent.inSpecialQuery q) := by
  intro t
  obtain ⟨body, hrequest⟩ := c.requestOf_eq call
  rw [hrequest] at h
  obtain ⟨hurl, hmethod, hweb⟩ := of_request_ok h
  have hlast : ∀ c ∈ t.getLast?, 0x20 < c.toNat := c.repository.lt_of_mem_getLast? call
  rw [labelsUrl_append hbase] at hurl
  have hscheme : r.url.scheme = o.scheme := o.scheme_of_ofText? hlast hurl
  rw [hscheme] at hweb
  rw [o.ofText?_append (by rintro _ ⟨⟩; rfl) hlast hweb] at hurl
  obtain ⟨read, hread, heq⟩ := Option.map_eq_some_iff.mp hurl
  rw [← heq]
  exact ⟨hweb, hmethod, read, hread, rfl, rfl, rfl, rfl, rfl⟩

/-- **The labels that a request asks for are those of the repository exactly if it is plain.** -/
theorem isAddressed_iff (hbase : c.baseUrl = String.ofList o.text)
    (howner : '/' ∉ c.repository.owner.toList) (hname : '/' ∉ c.repository.name.toList)
    {call : TrackerCall} {r : Request} (h : c.requestOf call = .ok r) :
    c.repository.IsAddressed call r.url ↔ c.repository.IsPlain := by
  obtain ⟨-, -, read, -, -, -, -, hpath, hquery⟩ := url_of_requestOf hbase h
  have hslash := c.repository.slash_not_mem_labelsParts howner hname call.pr
  have hne : (c.repository.labelsParts call.pr).map String.toList ≠ [] := by
    simp [Repository.labelsParts]
  have hq : ∀ c ∈ call.queryText.toList.head?, c = '?' := by
    cases call with
    | list pr =>
      show ∀ c ∈ "?per_page=100".toList.head?, c = '?'
      decide +kernel
    | add pr label => nofun
  constructor
  · intro haddressed
    have hparts := haddressed.path
    rw [hpath, Repository.hasLabelsAt_segments] at hparts
    exact (Repository.isPlain_iff call.pr).mp (Url.isPlain_of_readSegments hne hslash hq hparts)
  · intro hplain
    have hparts := (Repository.isPlain_iff call.pr).mpr hplain
    have hread := Url.readSegments_of_isPlain hne hslash hq hparts
    refine ⟨by rw [hpath, Repository.hasLabelsAt_segments]; exact hread, ?_⟩
    have hfront : ∀ x ∈ '/' :: ['/'].intercalate ((c.repository.labelsParts call.pr).map
        String.toList), x ∉ Url.marks := by
      rw [List.forall_mem_cons]
      exact ⟨by decide, Url.not_mem_marks_of_mem_intercalate fun part hpart =>
        (hparts part hpart).noMark⟩
    rw [hquery, ← List.cons_append, Url.queryPart_append hfront]
    cases call with
    | list pr =>
      show (Url.queryPart "?per_page=100".toList).map (fun q =>
        String.ofList (Percent.encode Percent.inSpecialQuery q)) = some "per_page=100"
      decide +kernel
    | add pr label => rfl

/-- Two clients are for the same target; their quotas may differ. -/
structure SameTarget (c c' : Client) : Prop where
  baseUrl : c'.baseUrl = c.baseUrl
  token : c'.token = c.token
  repository : c'.repository = c.repository

theorem requestOf_congr {c c' : Client} (h : SameTarget c c') (call : TrackerCall) :
    c'.requestOf call = c.requestOf call := by
  have hrequest : c'.request = c.request := by
    unfold request authorization
    rw [h.token]
  have hurl : c'.labelsUrl = c.labelsUrl := by
    unfold labelsUrl
    rw [h.baseUrl, h.repository]
  cases call with
  | list pr => rw [requestOf, requestOf, hrequest, hurl]
  | add pr label => rw [requestOf, requestOf, hrequest, hurl]

end Client

/-! ## Sessions -/

section

variable {σ : Type} {network : Network (StateM σ)}

/-- Performing a request changes no more of a client than its quota, and sends nothing else. -/
theorem sent_of_performance {request : Except HttpFault Request} {c c' : Client}
    {log log' : List Delivery} {s s' : σ} {answer : Except TrackerError Response}
    (h : Performance network request c log s answer c' log' s') :
    c.SameTarget c' ∧ ∀ d ∈ log', d ∈ log ∨ request = .ok d.request := by
  cases h with
  | blocked _ => exact ⟨⟨rfl, rfl, rfl⟩, fun d hd => Or.inl hd⟩
  | unmade _ _ => exact ⟨⟨rfl, rfl, rfl⟩, fun d hd => Or.inl hd⟩
  | lost _ hrequest _ =>
    refine ⟨⟨rfl, rfl, rfl⟩, fun d hd => (List.mem_append.mp hd).imp_right fun hd => ?_⟩
    rw [List.mem_singleton.mp hd]
    exact hrequest
  | answered _ hrequest _ _ =>
    refine ⟨⟨rfl, rfl, rfl⟩, fun d hd => (List.mem_append.mp hd).imp_right fun hd => ?_⟩
    rw [List.mem_singleton.mp hd]
    exact hrequest

theorem sent_of_grant (network : Network (StateM σ)) (wish : Wish) (c : Client)
    (log : List Delivery) (s : σ) :
    let ran := ((sessionTracker network).grant wish).run (c, log, s)
    c.SameTarget ran.2.1
      ∧ ∀ d ∈ ran.2.2.1, d ∈ log
          ∨ ∃ call, wish = .call call ∧ c.requestOf call = .ok d.request := by
  intro ran
  have hgoes := (sessionTracker network).goes_grant wish (c, log, s)
  cases wish with
  | pause d =>
    obtain ⟨hclient, hlog, -⟩ := eq_of_goes_pause hgoes
    exact ⟨hclient ▸ ⟨rfl, rfl, rfl⟩, fun d hd => Or.inl (hlog ▸ hd)⟩
  | call call =>
    have hcall := Exchange.call?_grant (sessionTracker network) call (c, log, s)
    obtain ⟨answer, hperformance, -⟩ := performance_of_goes hcall hgoes
    obtain ⟨hclient, hsent⟩ := sent_of_performance hperformance
    exact ⟨hclient, fun d hd => (hsent d hd).imp_right fun hrequest => ⟨call, rfl, hrequest⟩⟩

/-- **Every request of a session is that of one of its calls**, as the client was made to ask it. -/
theorem sent_of_after (network : Network (StateM σ)) (wishes : List Wish) (c : Client)
    (log : List Delivery) (s : σ) :
    ∀ d ∈ ((sessionTracker network).after wishes (c, log, s)).2.1, d ∈ log
      ∨ ∃ call, .call call ∈ wishes ∧ c.requestOf call = .ok d.request := by
  induction wishes generalizing c log s with
  | nil => exact fun d hd => Or.inl hd
  | cons wish wishes ih =>
    obtain ⟨hclient, hfirst⟩ := sent_of_grant network wish c log s
    rw [Tracker.after_cons]
    intro d hd
    rcases ih _ _ _ d hd with hd | ⟨call, hcall, hrequest⟩
    · refine (hfirst d hd).imp_right ?_
      rintro ⟨call, rfl, hrequest⟩
      exact ⟨call, List.mem_cons_self, hrequest⟩
    · rw [Client.requestOf_congr hclient] at hrequest
      exact Or.inr ⟨call, List.mem_cons_of_mem _ hcall, hrequest⟩

end

/-- What a client asks for goes to the interface that its target names. -/
theorem origin_of_requestOf {target : Target} {c : Client} (hmade : Client.ofTarget target = .ok c)
    {o : Origin} (horigin : IsOrigin target.apiUrl o) {call : TrackerCall} {r : Request}
    (h : c.requestOf call = .ok r) :
    ∃ base, Url.ofText? target.apiUrl = some base
      ∧ r.url.scheme = base.scheme ∧ r.url.host = base.host ∧ r.url.service = base.service := by
  obtain ⟨hweb, -, read, hread, hscheme, hhost, hservice, -, -⟩ :=
    Client.url_of_requestOf (Client.baseUrl_of_ofTarget hmade horigin) h
  obtain ⟨n, hn⟩ := horigin
  have hslash : ∀ c ∈ List.replicate n '/', c = '/' := fun c hc => List.eq_of_mem_replicate hc
  have hbase := o.ofText?_append (t := List.replicate n '/')
    (fun c hc => hslash c (List.mem_of_mem_head? hc))
    (fun c hc => by rw [hslash c (List.mem_of_getLast? hc)]; decide) hweb
  rw [← hn, String.ofList_toList, hread] at hbase
  exact ⟨_, hbase, hscheme, hhost, hservice⟩

/--
**Requests reach the labels that they are for if the repository is plain, and only then.**

A client is made for a target whose repository was read from a text, and whose interface is a
scheme and a host. It is asked for any calls and pauses, while its network answers in any way
whatever. Each request that it has sent then is the one that it makes for one of these calls. It has
gone to the host of the interface. Its segments stand for `repos`, the owner, the name, `issues`,
the number of the pull request and `labels`, with the query of the call, exactly if the owner and
the name are plain; and then its path leads to the labels of no other pull request and of no other
repository.
-/
theorem requests_reach_labels {target : Target} {c : Client}
    (hmade : Client.ofTarget target = .ok c) {text : String}
    (haccepted : Repository.parse text = .ok target.repository) {o : Origin}
    (horigin : IsOrigin target.apiUrl o) {σ : Type} (network : Network (StateM σ)) (s : σ)
    (wishes : List Wish) :
    ∀ d ∈ ((sessionTracker network).after wishes (c, [], s)).2.1,
      ∃ call, .call call ∈ wishes ∧ c.requestOf call = .ok d.request
        ∧ d.request.method = call.method
        ∧ (∃ base, Url.ofText? target.apiUrl = some base
            ∧ d.request.url.scheme = base.scheme ∧ d.request.url.host = base.host
            ∧ d.request.url.service = base.service)
        ∧ (target.repository.IsAddressed call d.request.url ↔ target.repository.IsPlain)
        ∧ (target.repository.IsPlain → ∀ repository pr,
            repository.HasLabelsAt pr d.request.url.path →
              repository = target.repository ∧ pr = call.pr) := by
  intro d hd
  have hbase := Client.baseUrl_of_ofTarget hmade horigin
  have hrepository := Client.repository_of_ofTarget hmade
  obtain ⟨howner, hname⟩ := Repository.slash_not_mem_of_ofText?
    (Repository.ofText?_of_parse haccepted)
  rw [← hrepository] at howner hname ⊢
  obtain ⟨call, hcall, hrequest⟩ := (sent_of_after network wishes c [] s d hd).resolve_left
    List.not_mem_nil
  have haddressed := Client.isAddressed_iff hbase howner hname hrequest
  refine ⟨call, hcall, hrequest, (Client.url_of_requestOf hbase hrequest).2.1,
    origin_of_requestOf hmade horigin hrequest, haddressed, fun hplain repository pr hlabels => ?_⟩
  exact hlabels.unique (haddressed.mpr hplain).path

/-- Both calls for a repository with a point in its name. -/
theorem requests_reach_labels_point :
    let target : Target := { token := "tok", repository := ⟨"o", ".r"⟩, apiUrl := "http://h:80//" }
    let c : Client := { baseUrl := "http://h:80", token := "tok", repository := ⟨"o", ".r"⟩ }
    let wishes := [.call (.list 7), .call (.add 7 "t")]
    let log := ((sessionTracker NetworkScript.network).after wishes (c, [], {})).2.1
    log.map (fun d => d.request.url.target)
        = ["/repos/o/.r/issues/7/labels?per_page=100", "/repos/o/.r/issues/7/labels"]
      ∧ ∀ d ∈ log, target.repository.HasLabelsAt 7 d.request.url.path
          ∧ d.request.url.host = some "h" ∧ d.request.url.service = none := by
  intro target c wishes log
  let o : Origin := ⟨'h', "ttp".toList, "h:80".toList, by decide, by decide, by decide, by decide⟩
  have hmade : Client.ofTarget target = .ok c := by decide +kernel
  have haccepted : Repository.parse " o/.r " = .ok target.repository := by decide +kernel
  have horigin : IsOrigin target.apiUrl o := ⟨2, by decide⟩
  have hinterface : Url.ofText? target.apiUrl
      = some { scheme := "http", host := some "h", path := .segments ["", ""] } := by decide +kernel
  refine ⟨by decide +kernel, fun d hd => ?_⟩
  obtain ⟨call, hcall, -, -, ⟨base, hbase, -, hhost, hservice⟩, haddressed, -⟩ :=
    requests_reach_labels hmade haccepted horigin NetworkScript.network {} wishes d hd
  cases hinterface.symm.trans hbase
  refine ⟨?_, hhost, hservice⟩
  have hlabels := (haddressed.mpr (by decide +kernel)).path
  rcases List.mem_pair.mp hcall with heq | heq
  · cases heq
    exact hlabels
  · cases heq
    exact hlabels

/-- A number sign in the name of a repository ends the path, so that its pull requests are told
apart no more. -/
theorem requests_miss_labels_numberSign :
    let target : Target := { token := "tok", repository := ⟨"o", "r#x"⟩, apiUrl := "http://h" }
    let c : Client := { baseUrl := "http://h", token := "tok", repository := ⟨"o", "r#x"⟩ }
    let wishes := [.call (.add 7 "t"), .call (.add 8 "t")]
    let log := ((sessionTracker NetworkScript.network).after wishes (c, [], {})).2.1
    Repository.parse "o/r#x" = .ok target.repository ∧ Client.ofTarget target = .ok c
      ∧ log.map (fun d => d.request.url.target) = ["/repos/o/r", "/repos/o/r"]
      ∧ ∀ d ∈ log, ∀ pr, ¬target.repository.HasLabelsAt pr d.request.url.path := by
  intro target c wishes log
  refine ⟨by decide +kernel, by decide +kernel, by decide +kernel, fun d hd pr hlabels => ?_⟩
  have hpath : ∀ d ∈ log, d.request.url.path = .segments ["repos", "o", "r"] := by decide +kernel
  obtain ⟨segments, hsegments, hparts⟩ := hlabels
  cases (hpath d hd).symm.trans hsegments
  exact absurd (congrArg List.length hparts) (by simp [Repository.labelsParts])

end GitHub

end PathLabels
