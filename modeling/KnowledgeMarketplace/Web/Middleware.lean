import Mathlib.Data.List.Infix

/-!
# Edge redirects

The middleware sees the host and the path of a request and whether it has an
access cookie.  It moves a request to the host of the path's experience, or it
turns a request to the login or to the account.
-/

namespace KnowledgeMarketplace

namespace Web

/-! ## Paths -/

/-- `pathname === p || pathname.startsWith(`${p}/`)`. -/
def under (pathname root : String) : Bool :=
  pathname = root || (root ++ "/").toList.isPrefixOf pathname.toList

def protectedPrefixes : List String :=
  ["/account", "/onboarding", "/expert", "/requests", "/opportunities",
    "/offers", "/assignments", "/orders", "/portal"]

def authPages : List String :=
  ["/login", "/login/expert", "/register", "/register/expert"]

/-- Paths where the redirect layer runs at request time. -/
def redirectScope : List String :=
  ["/account", "/onboarding", "/expert", "/login", "/login/expert",
    "/register", "/register/expert"]

def resolveRoute (pathname : String) (hasAccessCookie : Bool) :
    Option String :=
  let isProtected := protectedPrefixes.any (under pathname)
  if isProtected && !hasAccessCookie then some "/login"
  else if hasAccessCookie && authPages.contains pathname then some "/account"
  else none

def inRedirectScope (pathname : String) : Bool :=
  redirectScope.any (under pathname)

/-! ## Hosts -/

inductive Experience where
  | marketing
  | app
  | portal
  deriving DecidableEq

def appPrefixes : List String :=
  ["/login", "/login/expert", "/register", "/register/expert",
    "/verify-email", "/reset-password", "/account", "/onboarding", "/expert",
    "/requests", "/offers", "/opportunities", "/assignments", "/orders",
    "/messages"]

def experienceForPath (pathname : String) : Experience :=
  if under pathname "/portal" then .portal
  else if appPrefixes.any (under pathname) then .app
  else .marketing

/-- A host for some of the experiences. -/
structure ExperienceHosts where
  marketing : Option String := none
  app : Option String := none
  portal : Option String := none

namespace ExperienceHosts

def get (hosts : ExperienceHosts) : Experience → Option String
  | .marketing => hosts.marketing
  | .app => hosts.app
  | .portal => hosts.portal

/-- `Object.values(hosts).filter(Boolean)`. -/
def configured (hosts : ExperienceHosts) : List String :=
  ([hosts.marketing, hosts.app, hosts.portal].filterMap id).filter (· ≠ "")

end ExperienceHosts

/-- The hosts that the variables of the deployment name. -/
def experienceHosts (env : String → Option String) : ExperienceHosts where
  marketing := (env "NEXT_PUBLIC_MARKETING_HOST").filter (· ≠ "")
  app := (env "NEXT_PUBLIC_APP_HOST").filter (· ≠ "")
  portal := (env "NEXT_PUBLIC_PORTAL_HOST").filter (· ≠ "")

/-- `text.toLowerCase()`; the names of hosts are ASCII. -/
def lowerCase (text : String) : String :=
  String.ofList (text.toList.map Char.toLower)

/-- `host.split(":")[0].toLowerCase()`. -/
def bareHost (host : String) : String :=
  lowerCase (String.ofList (host.toList.takeWhile (· ≠ ':')))

/-- The host that a path should be served from, if the request is elsewhere. -/
def resolveHostRedirect
    (host : Option String) (pathname : String) (hosts : ExperienceHosts) :
    Option String :=
  match host with
  | none => none
  | some host =>
      let bare := bareHost host
      if hosts.configured.length < 3 ∨ host = "" then none
      else if ¬hosts.configured.any (lowerCase · = bare) then none
      else
        (hosts.get (experienceForPath pathname)).filter fun expected =>
          expected ≠ "" && lowerCase expected ≠ bare

/-! ## Requests -/

structure Url where
  protocol : String := "https:"
  host : String
  pathname : String
  search : List (String × String) := []
  deriving DecidableEq

/-- `searchParams.get(name)`. -/
def Url.param (url : Url) (name : String) : Option String :=
  (url.search.find? (·.1 = name)).map Prod.snd

/-- `searchParams.set(name, value)`: one value in the place of the first. -/
def Url.setParam (url : Url) (name value : String) : Url :=
  let others := url.search.dropWhile (·.1 ≠ name)
  { url with
    search :=
      url.search.takeWhile (·.1 ≠ name) ++
        (name, value) :: others.tail.filter (·.1 ≠ name) }

/-- The host header, the address and the access cookie of a request. -/
structure Request where
  host : Option String
  nextUrl : Url
  accessCookie : Option String := none
  deriving DecidableEq

/-- `Boolean(request.cookies.get(ACCESS_COOKIE)?.value)`. -/
def Request.hasAccessCookie (request : Request) : Bool :=
  request.accessCookie.any (· ≠ "")

/-- The request with which a browser follows a redirect. -/
def Request.follow (request : Request) (url : Url) : Request :=
  { request with host := some url.host, nextUrl := url }

inductive Response where
  | moved (url : Url)
  | redirect (url : Url)
  | next
  deriving DecidableEq

/-- Characters of `\w`. -/
def isWord (char : Char) : Bool :=
  char.isAlphanum || char = '_'

/-- The text ends in a point and at least one word character. -/
def hasExtension (text : List Char) : Bool :=
  let name := text.reverse.takeWhile isWord
  let before := text.reverse.dropWhile isWord
  name ≠ [] && before.head? = some '.'

/--
`config.matcher`: static assets, the build output and anything with a file
extension are left out.  The point of `favicon.ico` stands for any character.
-/
def matched (pathname : String) : Bool :=
  match pathname.toList with
  | '/' :: rest =>
      !("_next/static".toList.isPrefixOf rest ||
        "_next/image".toList.isPrefixOf rest ||
        ("favicon".toList.isPrefixOf rest &&
          "ico".toList.isPrefixOf (rest.drop 8)) ||
        hasExtension rest)
  | _ => false

section Edge

variable (setHost : String → String) (env : String → Option String)

/--
The redirect layer.  `setHost` is the host that an address has after
`url.host = host` and `url.port = ""`.
-/
def middleware (request : Request) : Response :=
  let pathname := request.nextUrl.pathname
  match resolveHostRedirect request.host pathname (experienceHosts env) with
  | some targetHost =>
      .moved
        { request.nextUrl with
          host := setHost targetHost
          protocol := "https:" }
  | none =>
      let redirectTarget :=
        if inRedirectScope pathname then
          resolveRoute pathname request.hasAccessCookie
        else none
      match redirectTarget with
      | some target =>
          let url :=
            if target = "/login" ∧
                (request.nextUrl.param "next").getD "" = "" then
              request.nextUrl.setParam "next" pathname
            else { request.nextUrl with search := [] }
          .redirect { url with pathname := target }
      | none => .next

/-- What a request gets at the edge: other paths do not reach the middleware. -/
def edge (request : Request) : Response :=
  if matched request.nextUrl.pathname then middleware setHost env request
  else .next

/-- A redirect to another host, or to the login or the account. -/
inductive Hop where
  | host
  | route
  deriving DecidableEq

/-- Following the redirects, from a request to one that is passed on. -/
inductive Follows : Request → List Hop → Request → Prop where
  | passed {request : Request} (here : edge setHost env request = .next) :
      Follows request [] request
  | moved {request last : Request} {url : Url} {hops : List Hop}
      (sent : edge setHost env request = .moved url)
      (later : Follows (request.follow url) hops last) :
      Follows request (.host :: hops) last
  | turned {request last : Request} {url : Url} {hops : List Hop}
      (sent : edge setHost env request = .redirect url)
      (later : Follows (request.follow url) hops last) :
      Follows request (.route :: hops) last

end Edge

end Web

end KnowledgeMarketplace
