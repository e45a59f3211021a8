import KnowledgeMarketplace.Web.Middleware
import Mathlib.Data.List.TakeWhile

/-!
# No redirect loops

Every path that the route layer redirects, and every path that it redirects
to, belongs to the app.  So a host move is never undone by a redirect of the
route layer, and after one of each nothing is left to redirect.
-/

namespace KnowledgeMarketplace

namespace Web

/-! ## What the route layer redirects -/

/-- Of two roots of one path, one is a root of the other. -/
theorem under_comparable {pathname first second : String}
    (one : under pathname first = true) (other : under pathname second = true) :
    first.toList <+: second.toList ∨ second.toList <+: first.toList := by
  have root : ∀ {root : String}, under pathname root = true →
      root.toList <+: pathname.toList := by
    intro root below
    simp only [under, Bool.or_eq_true, decide_eq_true_eq,
      List.isPrefixOf_iff_prefix, String.toList_append] at below
    rcases below with same | longer
    · exact same ▸ List.prefix_rfl
    · exact (List.prefix_append _ _).trans longer
  exact List.prefix_or_prefix_of_prefix (root one) (root other)

/-- The redirect scope is a part of the app. -/
theorem experience_of_inRedirectScope {pathname : String}
    (inside : inRedirectScope pathname = true) :
    experienceForPath pathname = .app := by
  obtain ⟨root, listed, below⟩ := List.any_eq_true.mp inside
  have elsewhere : under pathname "/portal" = false := by
    by_contra both
    have comparable := under_comparable below (Bool.of_not_eq_false both)
    revert comparable
    simp only [redirectScope, List.mem_cons, List.not_mem_nil, or_false]
      at listed
    rcases listed with rfl | rfl | rfl | rfl | rfl | rfl | rfl <;> decide
  have listedApp : root ∈ appPrefixes := by
    have part : ∀ root ∈ redirectScope, root ∈ appPrefixes := by decide
    exact part root listed
  have app : appPrefixes.any (under pathname) = true :=
    List.any_eq_true.mpr ⟨root, listedApp, below⟩
  rw [experienceForPath, elsewhere, app]
  rfl

/-- Where a redirect of the route layer leads, no other follows. -/
theorem resolveRoute_target
    {pathname target : String} {hasAccessCookie : Bool}
    (redirected : resolveRoute pathname hasAccessCookie = some target) :
    experienceForPath target = .app ∧
      resolveRoute target hasAccessCookie = none := by
  cases hasAccessCookie with
  | false =>
      simp only [resolveRoute, Bool.not_false, Bool.and_true, Bool.false_and]
        at redirected
      split at redirected
      · obtain rfl := Option.some.inj redirected
        decide
      · simp at redirected
  | true =>
      simp only [resolveRoute, Bool.not_true, Bool.and_false, Bool.true_and,
        Bool.false_eq_true, if_false] at redirected
      split at redirected
      · obtain rfl := Option.some.inj redirected
        decide
      · simp at redirected

/-! ## Hosts -/

/-- A colon is no letter. -/
theorem toLower_eq_colon {char : Char} : char.toLower = ':' ↔ char = ':' := by
  delta Char.toLower
  split
  · rename_i upper
    constructor
    · intro same
      have value := congrArg Char.val same
      have low : char.val.toNat ≤ 90 := upper.2
      have high : 65 ≤ char.val.toNat := upper.1
      have number := congrArg UInt32.toNat value
      simp only [UInt32.toNat_add] at number
      revert number
      have shift : ('a'.val - 'A'.val).toNat = 32 := by decide
      have colon : (':' : Char).val.toNat = 58 := by decide
      rw [shift, colon]
      omega
    · intro same
      subst same
      exact absurd upper (by decide)
  · exact Iff.rfl

theorem colon_mem_lowerCase {text : String} :
    ':' ∈ (lowerCase text).toList ↔ ':' ∈ text.toList := by
  simp only [lowerCase, String.toList_ofList, List.mem_map, toLower_eq_colon]
  constructor
  · intro ⟨char, member, same⟩
    exact same ▸ member
  · intro member
    exact ⟨_, member, rfl⟩

/-- Without a colon the whole host is the bare host. -/
theorem bareHost_of_portFree {host : String} (free : ':' ∉ host.toList) :
    bareHost host = lowerCase host := by
  have whole : host.toList.takeWhile (· ≠ ':') = host.toList := by
    rw [List.takeWhile_eq_self_iff]
    intro char member
    have other : char ≠ ':' := fun same => free (same ▸ member)
    simpa using other
  rw [bareHost, whole, String.ofList_toList]

/-- The request is on the host of its path's experience. -/
def OnHost (hosts : ExperienceHosts) (request : Request) : Prop :=
  ∃ expected,
    hosts.get (experienceForPath request.nextUrl.pathname) = some expected ∧
      request.host.map bareHost = some (lowerCase expected)

/-- A request on the right host is not moved. -/
theorem OnHost.stays {hosts : ExperienceHosts} {request : Request}
    (right : OnHost hosts request) :
    resolveHostRedirect request.host request.nextUrl.pathname hosts = none := by
  obtain ⟨expected, mapped, same⟩ := right
  cases header : request.host with
  | none => rfl
  | some host =>
      rw [header, Option.map_some, Option.some.injEq] at same
      simp [resolveHostRedirect, mapped, same]

/-- A request is only moved to the host of its path's experience. -/
theorem get_of_resolveHostRedirect
    {hosts : ExperienceHosts} {host : Option String} {pathname target : String}
    (moved : resolveHostRedirect host pathname hosts = some target) :
    hosts.get (experienceForPath pathname) = some target := by
  cases host with
  | none => simp [resolveHostRedirect] at moved
  | some host =>
      simp only [resolveHostRedirect] at moved
      split_ifs at moved
      exact (Option.filter_eq_some_iff.mp moved).1

/-- Every experience has a host. -/
def ExperienceHosts.Full (hosts : ExperienceHosts) : Prop :=
  ∀ experience, (hosts.get experience).isSome

/-- The request came to one of the hosts, which its address names too. -/
def CameTo (hosts : ExperienceHosts) (request : Request) : Prop :=
  request.host = some request.nextUrl.host ∧
    ∃ experience host, hosts.get experience = some host ∧
      bareHost request.nextUrl.host = lowerCase host

/-- No variable leaves an empty host. -/
theorem ne_empty_of_get
    {env : String → Option String} {experience : Experience} {host : String}
    (mapped : (experienceHosts env).get experience = some host) :
    host ≠ "" := by
  cases experience <;>
    simpa using (Option.filter_eq_some_iff.mp mapped).2

theorem mem_configured
    {hosts : ExperienceHosts} {experience : Experience} {host : String}
    (mapped : hosts.get experience = some host) (nonempty : host ≠ "") :
    host ∈ hosts.configured := by
  cases experience <;>
    simp_all [ExperienceHosts.get, ExperienceHosts.configured]

theorem length_configured
    {env : String → Option String} (full : (experienceHosts env).Full) :
    (experienceHosts env).configured.length = 3 := by
  have named : ∀ experience, ∃ host,
      (experienceHosts env).get experience = some host ∧ host ≠ "" := by
    intro experience
    obtain ⟨host, mapped⟩ := Option.isSome_iff_exists.mp (full experience)
    exact ⟨host, mapped, ne_empty_of_get mapped⟩
  obtain ⟨marketing, first, firstNe⟩ := named .marketing
  obtain ⟨app, second, secondNe⟩ := named .app
  obtain ⟨portal, third, thirdNe⟩ := named .portal
  simp only [ExperienceHosts.get] at first second third
  simp [ExperienceHosts.configured, first, second, third, firstNe, secondNe,
    thirdNe]

theorem lowerCase_ne_empty {text : String} (nonempty : text ≠ "") :
    lowerCase text ≠ "" := by
  intro empty
  have characters := congrArg String.toList empty
  simp only [lowerCase, String.toList_ofList, String.toList_empty,
    List.map_eq_nil_iff, String.toList_eq_nil_iff] at characters
  exact nonempty characters

/-- With all hosts configured, only a request on its right host stays. -/
theorem onHost_of_stays
    {env : String → Option String} {request : Request}
    (full : (experienceHosts env).Full)
    (arrived : CameTo (experienceHosts env) request)
    (stays : resolveHostRedirect request.host request.nextUrl.pathname
      (experienceHosts env) = none) :
    OnHost (experienceHosts env) request := by
  obtain ⟨header, experience, host, mapped, same⟩ := arrived
  have hostNe := ne_empty_of_get mapped
  have known : (experienceHosts env).configured.any
      (lowerCase · = bareHost request.nextUrl.host) = true :=
    List.any_eq_true.mpr ⟨host, mem_configured mapped hostNe, by simp [same]⟩
  have headerNe : request.nextUrl.host ≠ "" := by
    intro empty
    rw [empty] at same
    exact lowerCase_ne_empty hostNe same.symm
  obtain ⟨expected, wanted⟩ := Option.isSome_iff_exists.mp
    (full (experienceForPath request.nextUrl.pathname))
  have expectedNe := ne_empty_of_get wanted
  rw [header] at stays
  simp only [resolveHostRedirect, length_configured full, headerNe, known,
    wanted, lt_irrefl, or_self, not_true_eq_false, if_false,
    Option.filter_some] at stays
  have right : expected ≠ "" →
      lowerCase expected = bareHost request.nextUrl.host := by
    simpa using stays
  exact ⟨expected, wanted,
    by rw [header, Option.map_some, right expectedNe]⟩

/-! ## Chains of redirects -/

section Chains

variable {setHost : String → String} {env : String → Option String}

/-- The redirects determine the chain. -/
theorem Follows.unique {request first second : Request} {one other : List Hop}
    (chain : Follows setHost env request one first)
    (rival : Follows setHost env request other second) :
    other = one ∧ second = first := by
  induction chain generalizing other with
  | passed here =>
      cases rival with
      | passed _ => exact ⟨rfl, rfl⟩
      | moved sent _ => simp [here] at sent
      | turned sent _ => simp [here] at sent
  | moved sent _ inductionHypothesis =>
      cases rival with
      | passed here => simp [here] at sent
      | moved again later =>
          obtain rfl := Response.moved.inj (sent.symm.trans again)
          obtain ⟨hops, last⟩ := inductionHypothesis later
          exact ⟨congrArg _ hops, last⟩
      | turned again _ => simp [again] at sent
  | turned sent _ inductionHypothesis =>
      cases rival with
      | passed here => simp [here] at sent
      | moved again _ => simp [again] at sent
      | turned again later =>
          obtain rfl := Response.redirect.inj (sent.symm.trans again)
          obtain ⟨hops, last⟩ := inductionHypothesis later
          exact ⟨congrArg _ hops, last⟩

/-- The route layer leaves the request alone. -/
def Routed (request : Request) : Prop :=
  inRedirectScope request.nextUrl.pathname = true →
    resolveRoute request.nextUrl.pathname request.hasAccessCookie = none

/-- A request that neither layer redirects is passed on. -/
theorem edge_of_routed {request : Request}
    (stays : resolveHostRedirect request.host request.nextUrl.pathname
      (experienceHosts env) = none)
    (routed : Routed request) : edge setHost env request = .next := by
  simp only [edge, middleware, stays]
  split
  · split
    · rename_i target redirected
      split at redirected
      · rename_i inside
        simp [routed inside] at redirected
      · simp at redirected
    · rfl
  · rfl

/-- What a host move says about the request and the address it leads to. -/
theorem of_moved {request : Request} {url : Url}
    (sent : edge setHost env request = .moved url) :
    ∃ target, (experienceHosts env).get
        (experienceForPath request.nextUrl.pathname) = some target ∧
      url.host = setHost target ∧ url.pathname = request.nextUrl.pathname := by
  simp only [edge, middleware] at sent
  split at sent
  · split at sent
    · rename_i target moved
      obtain rfl := Response.moved.inj sent
      exact ⟨target, get_of_resolveHostRedirect moved, rfl, rfl⟩
    · split at sent <;> simp at sent
  · simp at sent

/-- What a redirect of the route layer says about both. -/
theorem of_redirect {request : Request} {url : Url}
    (sent : edge setHost env request = .redirect url) :
    resolveHostRedirect request.host request.nextUrl.pathname
        (experienceHosts env) = none ∧
      url.host = request.nextUrl.host ∧
      experienceForPath request.nextUrl.pathname = .app ∧
      experienceForPath url.pathname = .app ∧
      Routed (request.follow url) := by
  simp only [edge, middleware] at sent
  split at sent
  · split at sent
    · simp at sent
    · rename_i stays
      split at sent
      · rename_i target redirected
        split at redirected
        · rename_i inside
          obtain ⟨app, rest⟩ := resolveRoute_target redirected
          obtain rfl := Response.redirect.inj sent
          refine ⟨stays, ?_, experience_of_inRedirectScope inside, app,
            fun _ => rest⟩
          simp only [Url.setParam]
          split <;> rfl
        · simp at redirected
      · simp at sent
  · simp at sent

/--
The hosts of the deployment name no port, and setting one as the host of an
address keeps it up to case.
-/
structure HostsKept
    (setHost : String → String) (env : String → Option String) : Prop where
  portFree : ∀ experience host,
    (experienceHosts env).get experience = some host → ':' ∉ host.toList
  kept : ∀ experience host,
    (experienceHosts env).get experience = some host →
      lowerCase (setHost host) = lowerCase host

/-- A host that is set is recognised in the next request. -/
theorem HostsKept.bareHost_setHost (hosts : HostsKept setHost env)
    {experience : Experience} {host : String}
    (mapped : (experienceHosts env).get experience = some host) :
    bareHost (setHost host) = lowerCase host := by
  have same := hosts.kept experience host mapped
  have free : ':' ∉ (setHost host).toList := by
    rw [← colon_mem_lowerCase, same, colon_mem_lowerCase]
    exact hosts.portFree experience host mapped
  rw [bareHost_of_portFree free, same]

/-- After a host move the request is on the right host. -/
theorem onHost_of_moved (hosts : HostsKept setHost env)
    {request : Request} {url : Url}
    (sent : edge setHost env request = .moved url) :
    OnHost (experienceHosts env) (request.follow url) := by
  obtain ⟨target, mapped, host, pathname⟩ := of_moved sent
  refine ⟨target, ?_, ?_⟩
  · simpa only [Request.follow, pathname] using mapped
  · simp only [Request.follow, Option.map_some, host,
      hosts.bareHost_setHost mapped]

/-- A redirect of the route layer stays on the right host. -/
theorem onHost_of_redirect
    {request : Request} {url : Url}
    (sent : edge setHost env request = .redirect url)
    (header : request.host = some request.nextUrl.host)
    (right : OnHost (experienceHosts env) request) :
    OnHost (experienceHosts env) (request.follow url) := by
  obtain ⟨_, host, app, target, _⟩ := of_redirect sent
  obtain ⟨expected, mapped, same⟩ := right
  rw [app] at mapped
  refine ⟨expected, ?_, ?_⟩
  · simpa only [Request.follow, target] using mapped
  · rw [header] at same
    simpa only [Request.follow, host] using same

/-- From a request on its right host, the route layer redirects once at most. -/
theorem follows_of_onHost
    {request : Request} (header : request.host = some request.nextUrl.host)
    (right : OnHost (experienceHosts env) request) :
    ∃ hops last, Follows setHost env request hops last ∧
      (hops = [] ∨ hops = [.route]) ∧ OnHost (experienceHosts env) last := by
  cases sent : edge setHost env request with
  | next => exact ⟨[], request, .passed sent, .inl rfl, right⟩
  | moved url =>
      exfalso
      simp only [edge, middleware, right.stays] at sent
      split at sent
      · split at sent <;> simp at sent
      · simp at sent
  | redirect url =>
      obtain ⟨_, _, _, _, routed⟩ := of_redirect sent
      have later := onHost_of_redirect sent header right
      have passed : edge setHost env (request.follow url) = .next :=
        edge_of_routed later.stays routed
      exact ⟨[.route], _, .turned sent (.passed passed), .inr rfl, later⟩

/-- A request that the route layer leaves alone is moved once at most. -/
theorem follows_of_routed (hosts : HostsKept setHost env)
    {request : Request} (routed : Routed request) :
    ∃ hops last, Follows setHost env request hops last ∧
      (hops = [] ∨ hops = [.host]) ∧
      (OnHost (experienceHosts env) request →
        OnHost (experienceHosts env) last) := by
  cases sent : edge setHost env request with
  | next => exact ⟨[], request, .passed sent, .inl rfl, id⟩
  | moved url =>
      obtain ⟨_, _, _, pathname⟩ := of_moved sent
      have right := onHost_of_moved hosts sent
      have again : Routed (request.follow url) := by
        simpa only [Routed, Request.follow, pathname,
          Request.hasAccessCookie] using routed
      have passed : edge setHost env (request.follow url) = .next :=
        edge_of_routed right.stays again
      exact ⟨[.host], _, .moved sent (.passed passed), .inr rfl, fun _ => right⟩
  | redirect url =>
      exfalso
      simp only [edge, middleware] at sent
      split at sent
      · split at sent
        · simp at sent
        · split at sent
          · rename_i redirected
            split at redirected
            · rename_i inside
              simp [routed inside] at redirected
            · simp at redirected
          · simp at sent
      · simp at sent

/--
Whatever the path, the host, the cookie and the hosts of the deployment,
following the redirects ends after one host move and one redirect of the
route layer at most.  With all hosts configured, a request that came to one of
them for a path that the middleware sees ends on the host of its path.
-/
theorem edge_redirects_end (hosts : HostsKept setHost env) (request : Request) :
    ∃ hops last, Follows setHost env request hops last ∧
      (∀ other rival, Follows setHost env request other rival →
        other = hops ∧ rival = last) ∧
      hops.count .host ≤ 1 ∧ hops.count .route ≤ 1 ∧ hops.length ≤ 2 ∧
      ((experienceHosts env).Full → CameTo (experienceHosts env) request →
        matched request.nextUrl.pathname = true →
          OnHost (experienceHosts env) last) := by
  have chain : ∃ hops last, Follows setHost env request hops last ∧
      hops ∈ [[], [.host], [.route], [.host, .route], [.route, .host]] ∧
      ((experienceHosts env).Full → CameTo (experienceHosts env) request →
        matched request.nextUrl.pathname = true →
          OnHost (experienceHosts env) last) := by
    cases sent : edge setHost env request with
    | next =>
        refine ⟨[], request, .passed sent, by simp, ?_⟩
        intro full arrived seen
        rw [edge, if_pos seen, middleware] at sent
        split at sent
        · simp at sent
        · rename_i stays
          exact onHost_of_stays full arrived stays
    | moved url =>
        obtain ⟨hops, last, rest, shape, right⟩ :=
          @follows_of_onHost setHost env _ rfl (onHost_of_moved hosts sent)
        refine ⟨.host :: hops, last, .moved sent rest, ?_, fun _ _ _ => right⟩
        rcases shape with rfl | rfl <;> simp
    | redirect url =>
        obtain ⟨stays, _, _, _, routed⟩ := of_redirect sent
        obtain ⟨hops, last, rest, shape, right⟩ :=
          follows_of_routed hosts routed
        refine ⟨.route :: hops, last, .turned sent rest, ?_, ?_⟩
        · rcases shape with rfl | rfl <;> simp
        · intro full arrived _
          exact right (onHost_of_redirect sent arrived.1
            (onHost_of_stays full arrived stays))
  obtain ⟨hops, last, follows, shape, right⟩ := chain
  have counted : ∀ hops ∈ [[], [Hop.host], [.route], [.host, .route],
      [.route, .host]], hops.count .host ≤ 1 ∧ hops.count .route ≤ 1 ∧
        hops.length ≤ 2 := by decide
  obtain ⟨hostMoves, routeTurns, length⟩ := counted hops shape
  exact ⟨hops, last, follows, fun other rival chain => follows.unique chain,
    hostMoves, routeTurns, length, right⟩

end Chains

/-! ## The hosts of the sample configuration -/

/-- The sample values of the three variables. -/
def sampleHosts : String → Option String
  | "NEXT_PUBLIC_MARKETING_HOST" => some "www.example.com"
  | "NEXT_PUBLIC_APP_HOST" => some "app.example.com"
  | "NEXT_PUBLIC_PORTAL_HOST" => some "admin.example.com"
  | _ => none

theorem sampleHosts_kept : HostsKept lowerCase sampleHosts := by
  have sample : ∀ experience host,
      (experienceHosts sampleHosts).get experience = some host →
        host ∈ ["www.example.com", "app.example.com", "admin.example.com"] := by
    intro experience host mapped
    cases experience <;>
      · obtain rfl := Option.some.inj mapped
        decide
  constructor
  · intro experience host mapped
    have free : ∀ host ∈
        ["www.example.com", "app.example.com", "admin.example.com"],
        ':' ∉ host.toList := by decide
    exact free host (sample experience host mapped)
  · intro experience host mapped
    have kept : ∀ host ∈
        ["www.example.com", "app.example.com", "admin.example.com"],
        lowerCase (lowerCase host) = lowerCase host := by decide
    exact kept host (sample experience host mapped)

theorem sampleHosts_full : (experienceHosts sampleHosts).Full := by
  intro experience
  cases experience <;> rfl

/-- A visitor without a cookie asks the marketing host for a page. -/
def marketingVisit (pathname : String) : Request where
  host := some "www.example.com"
  nextUrl := { host := "www.example.com", pathname }

theorem marketingVisit_cameTo (pathname : String) :
    CameTo (experienceHosts sampleHosts) (marketingVisit pathname) :=
  have same : bareHost "www.example.com" = lowerCase "www.example.com" := by
    decide
  ⟨rfl, .marketing, "www.example.com", rfl, same⟩

/-- The account on the marketing host: a visitor ends on the right host. -/
theorem edge_redirects_end_account :
    ∃ hops last,
      Follows lowerCase sampleHosts (marketingVisit "/account") hops last ∧
        hops.length ≤ 2 ∧ OnHost (experienceHosts sampleHosts) last := by
  obtain ⟨hops, last, follows, _, _, _, length, right⟩ :=
    edge_redirects_end sampleHosts_kept (marketingVisit "/account")
  exact ⟨hops, last, follows, length,
    right sampleHosts_full (marketingVisit_cameTo _) (by decide)⟩

/--
A file below the portal is not moved: the middleware does not see paths with
an extension.
-/
theorem file_not_moved :
    HostsKept lowerCase sampleHosts ∧ (experienceHosts sampleHosts).Full ∧
      CameTo (experienceHosts sampleHosts)
        (marketingVisit "/portal/report.pdf") ∧
      Follows lowerCase sampleHosts (marketingVisit "/portal/report.pdf") []
        (marketingVisit "/portal/report.pdf") ∧
      ¬OnHost (experienceHosts sampleHosts)
        (marketingVisit "/portal/report.pdf") := by
  refine ⟨sampleHosts_kept, sampleHosts_full, marketingVisit_cameTo _,
    .passed (by decide), ?_⟩
  intro ⟨expected, mapped, same⟩
  have portal : experienceForPath "/portal/report.pdf" = .portal := by decide
  simp only [marketingVisit, portal] at mapped same
  obtain rfl := Option.some.inj mapped
  revert same
  decide

end Web

end KnowledgeMarketplace
