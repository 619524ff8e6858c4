import AgenticAttribution.Dashboard.Pages
import AgenticAttribution.Settlement.Reads

/-!
# Dashboard.App — the dashboard over the settlement service

`app/public/index.php`, its `GET` routes of pages and of their data, with `app/src/SettlementClient.php` and
`UpstreamException.php`.  Whatever comes back from the settlement service, a page holds its fixed markup and the values
as text (`pages_hold_no_markup`), and its links are those that the body behind it names (`links_respond`).

`json_decode` gives back what the service encoded, so the bodies are those of `Settlement.ReadBody`.  An answer below
400 whose body is not the one of its route, which no handler of the service gives, is outside the model: on the two
routes of all publishers it is an error that nothing catches, and on `/publishers/{publisherId}` and
`/settlements/{settlementId}` PHP warns of the keys that are missing and goes on.  The routes to the driver and to the
facilitator's faults are left out.
-/

namespace Dashboard

open Html Percent Settlement

/-! ## SettlementClient.php -/

section Client

structure UpstreamException where
  message : Bytes
  status : ℕ
  reason : Bytes

/-- What `curl` comes back with. -/
inductive Fetched where
  | unreachable (error : Bytes)
  | answered (status : ℕ) (body : ReadBody)

/-- `SettlementClient::get`. -/
def SettlementClient.get (fetch : List Char → Fetched) (path : List Char) : Except UpstreamException ReadBody :=
  match fetch path with
  | .unreachable error =>
    .error ⟨Utf8.str "settlement service unreachable: " ++ error, 502, Utf8.str "upstream_unreachable"⟩
  | .answered status body =>
    match body with
    | .text =>
      .error ⟨Utf8.str "settlement service returned a non-JSON body", if 400 ≤ status then status else 502,
        Utf8.str "upstream_malformed"⟩
    | .error error reason => if 400 ≤ status then .error ⟨error, status, reason⟩ else .ok body
    | body => if 400 ≤ status then .error ⟨Utf8.str "upstream error", status, []⟩ else .ok body

def settlementPageSize : ℕ := 25

def publisherPath (publisherID : Bytes) (limit : ℕ) : List Char :=
  pathOf [publishersSegment, rawurlencode publisherID] ++ '?' :: ("limit=".toList ++ Digits.natChars limit)

def chainPath (settlementID : Bytes) : List Char := pathOf [settlementsSegment, rawurlencode settlementID, chainSegment]

end Client

/-! ## index.php -/

section Index

/-- What a handler gives: a page, the data of one, an upstream failure, or (`fatal`) an error that nothing catches or
what it makes of a body that is not the one of its route. -/
inductive Outcome where
  | page (title : Bytes) (content : List Piece)
  | json (body : ReadBody)
  | thrown (error : UpstreamException)
  | fatal

/-- A handler that reads from the settlement service. -/
def reading (fetched : Except UpstreamException ReadBody) (f : ReadBody → Outcome) : Outcome :=
  match fetched with
  | .error error => .thrown error
  | .ok body => f body

def pageOf (title : Bytes) : Option (List Piece) → Outcome
  | some content => .page title content
  | none => .fatal

variable (stamp : ℤ → List Char) (fetch : List Char → Fetched)

def showPublishers (_ : Params) : Outcome :=
  reading (SettlementClient.get fetch (pathOf [publishersSegment])) fun
    | .publishers publishers => pageOf (Utf8.str "Publishers") (publishersPage publishers)
    | _ => .fatal

def showPublisher (parameters : Params) : Outcome :=
  match parameters.get "publisherId".toList with
  | none => .fatal
  | some publisherID =>
    reading (SettlementClient.get fetch (publisherPath publisherID settlementPageSize)) fun
      | .detail summary settlements rejections =>
        pageOf summary.name (publisherPage stamp summary settlements rejections)
      | _ => .fatal

def showChain (parameters : Params) : Outcome :=
  match parameters.get "settlementId".toList with
  | none => .fatal
  | some settlementID =>
    reading (SettlementClient.get fetch (chainPath settlementID)) fun
      | .chain chain => pageOf (Utf8.str "Attribution chain") (chainPage chain)
      | _ => .fatal

def listPublishers (_ : Params) : Outcome :=
  reading (SettlementClient.get fetch (pathOf [publishersSegment])) fun
    | .publishers publishers => .json (.publishers publishers)
    | _ => .fatal

def publisherDetail (parameters : Params) : Outcome :=
  match parameters.get "publisherId".toList with
  | none => .fatal
  | some publisherID => reading (SettlementClient.get fetch (publisherPath publisherID settlementPageSize)) .json

def routes : List (Route Outcome) :=
  [⟨.get, "/".toList, showPublishers fetch⟩,
   ⟨.get, "/publishers/\x7bpublisherId\x7d".toList, showPublisher stamp fetch⟩,
   ⟨.get, "/settlements/\x7bsettlementId\x7d".toList, showChain fetch⟩,
   ⟨.get, "/api/publishers".toList, listPublishers fetch⟩,
   ⟨.get, "/api/publishers/\x7bpublisherId\x7d".toList, publisherDetail fetch⟩,
   ⟨.get, "/healthz".toList, fun _ => .json .health⟩]

/-- What the browser gets: a page in the layout, or data. -/
inductive Content where
  | html (page : List Piece)
  | json (body : ReadBody)

structure Response where
  status : ℕ
  content : Content

/-- The page of an error. -/
def errorResponse (status : ℕ) (title message : Bytes) : Response :=
  ⟨status, .html (layout title (errorPage status message))⟩

/-- The rest of `index.php`; `none` is a `fatal` outcome. -/
def respond (method : Method) (path : List Char) : Option Response :=
  match dispatch (routes stamp fetch) method path with
  | none => some (errorResponse 404 (Utf8.str "Not found") (Utf8.str "No such page."))
  | some (.page title content) => some ⟨200, .html (layout title content)⟩
  | some (.json body) => some ⟨200, .json body⟩
  | some (.thrown error) =>
    some (errorResponse (if 400 ≤ error.status ∧ error.status < 600 then error.status else 502) (Utf8.str "Error")
      error.message)
  | some .fatal => none

end Index

/-! ## What a page holds -/

section Held

variable {stamp : ℤ → List Char} {fetch : List Char → Fetched}

/-- What a route gives is what its handler makes of some parameters. -/
theorem exists_of_dispatch {α : Type*} {routes : List (Route α)} {method : Method} {path : List Char} {a : α}
    (h : dispatch routes method path = some a) : ∃ route ∈ routes, ∃ parameters, a = route.handler parameters := by
  induction routes with
  | nil => cases h
  | cons route routes ih =>
    rw [dispatch] at h
    split_ifs at h
    · obtain ⟨r, hr, he⟩ := ih h
      exact ⟨r, List.mem_cons_of_mem _ hr, he⟩
    · cases hm : matchPath route.pattern path with
      | some parameters =>
        rw [hm] at h
        exact ⟨route, List.mem_cons_self, parameters, (Option.some.inj h).symm⟩
      | none =>
        rw [hm] at h
        obtain ⟨r, hr, he⟩ := ih h
        exact ⟨r, List.mem_cons_of_mem _ hr, he⟩

/-- The links of a page are all as they should be. -/
def Outcome.Held (good : List Char → Prop) : Outcome → Prop
  | .page _ content => ∃ found, Links content found ∧ ∀ target ∈ found, good target
  | _ => True

/-- What a page of this body links to is as it should be. -/
def LinksTo (good : List Char → Prop) : ReadBody → Prop
  | .publishers publishers => ∀ p ∈ publishers, good (link "publishers".toList p.publisherID)
  | .detail _ settlements _ => ∀ row ∈ settlements, good (link "settlements".toList row.settlementID)
  | .chain c => good (link "publishers".toList c.publisherID)
  | _ => True

variable {good : List Char → Prop}

theorem held_reading {path : List Char} {f : ReadBody → Outcome}
    (hfetch : ∀ status body, fetch path = .answered status body → LinksTo good body)
    (h : ∀ body, LinksTo good body → (f body).Held good) : (reading (SettlementClient.get fetch path) f).Held good := by
  unfold SettlementClient.get
  cases hanswer : fetch path with
  | unreachable error => trivial
  | answered status body =>
    have hbody := h body (hfetch status body hanswer)
    cases body with
    | text => trivial
    | _ =>
      simp only
      split_ifs
      · trivial
      · exact hbody

theorem held_pageOf {title : Bytes} {content : Option (List Piece)} {found : List (List Char)}
    (hfound : ∀ target ∈ found, good target) (h : ∀ ps, content = some ps → Links ps found) :
    (pageOf title content).Held good := by
  cases content with
  | none => trivial
  | some ps => exact ⟨found, h ps rfl, hfound⟩

/-- **The links of a page come from the body that it shows.** -/
theorem held_routes (hfetch : ∀ path status body, fetch path = .answered status body → LinksTo good body)
    {route : Route Outcome} (hroute : route ∈ routes stamp fetch) (parameters : Params) :
    (route.handler parameters).Held good := by
  simp only [routes, List.mem_cons, List.not_mem_nil, or_false] at hroute
  rcases hroute with rfl | rfl | rfl | rfl | rfl | rfl
  · refine held_reading (hfetch _) fun body hbody => ?_
    cases body with
    | publishers publishers =>
      exact held_pageOf (by simpa [LinksTo] using hbody) fun ps => links_publishersPage
    | _ => trivial
  · simp only [showPublisher]
    cases parameters.get "publisherId".toList with
    | none => trivial
    | some id =>
      refine held_reading (hfetch _) fun body hbody => ?_
      cases body with
      | detail summary settlements rejections =>
        exact held_pageOf (by simpa [LinksTo] using hbody) fun ps => links_publisherPage
      | _ => trivial
  · simp only [showChain]
    cases parameters.get "settlementId".toList with
    | none => trivial
    | some id =>
      refine held_reading (hfetch _) fun body hbody => ?_
      cases body with
      | chain chain => exact held_pageOf (by simpa [LinksTo] using hbody) fun ps => links_chainPage
      | _ => trivial
  · refine held_reading (hfetch _) fun body _ => ?_
    cases body <;> trivial
  · simp only [publisherDetail]
    cases parameters.get "publisherId".toList with
    | none => trivial
    | some id => exact held_reading (hfetch _) fun _ _ => trivial
  · trivial

/-- Every page has the links of its layout and of its content. -/
theorem links_respond (hfetch : ∀ path status body, fetch path = .answered status body → LinksTo good body)
    {method : Method} {path : List Char} {status : ℕ} {ps : List Piece}
    (h : respond stamp fetch method path = some ⟨status, .html ps⟩) :
    ∃ found, Links ps found ∧ ∀ target ∈ found, target = ['/'] ∨ good target := by
  have herror : ∀ (title message : Bytes) (status : ℕ), ∃ found,
      Links (layout title (errorPage status message)) found ∧ ∀ target ∈ found, target = ['/'] ∨ good target :=
    fun title message status => ⟨_, links_layout title (parts.errorPage status message), by simp⟩
  unfold respond at h
  cases hd : dispatch (routes stamp fetch) method path with
  | none =>
    rw [hd] at h
    cases h
    exact herror _ _ _
  | some outcome =>
    obtain ⟨route, hroute, parameters, rfl⟩ := exists_of_dispatch hd
    have hheld := held_routes hfetch hroute parameters
    rw [hd] at h
    cases ho : route.handler parameters with
    | page title content =>
      rw [ho] at h hheld
      cases h
      obtain ⟨found, hlinks, hfound⟩ := hheld
      refine ⟨_, links_layout title hlinks, fun target ht => ?_⟩
      exact (List.mem_cons.mp ht).imp_right (hfound target)
    | json body =>
      rw [ho] at h
      cases h
    | thrown error =>
      rw [ho] at h
      cases h
      exact herror _ _ _
    | fatal =>
      rw [ho] at h
      cases h

/-- **No value becomes markup.**  Whatever the settlement service answers and whatever is asked for, a reader of a page
finds its fixed markup and its values, character for character, and with other values the markup is the same. -/
theorem pages_hold_no_markup (stamp : ℤ → List Char) (fetch : List Char → Fetched) {method : Method}
    {path : List Char} {status : ℕ} {ps : List Piece}
    (h : respond stamp fetch method path = some ⟨status, .html ps⟩) :
    read .text (render specialchars ps) = tokens .text ps ∧
      ∀ qs : List Piece, qs.map Piece.shape = ps.map Piece.shape →
        read .text (render specialchars qs) = tokens .text qs ∧
          markup .text (render specialchars qs) = markup .text (render specialchars ps) := by
  obtain ⟨found, ⟨hplaced, -⟩, -⟩ := @links_respond stamp fetch (fun _ => True)
    (fun _ _ body _ => by cases body <;> simp [LinksTo]) _ _ _ _ h
  refine ⟨read_render hplaced, fun qs hqs => ?_⟩
  have hq : place .text (qs.map Piece.shape) = some .text := hqs ▸ hplaced
  exact ⟨read_render hq, markup_render hq hqs⟩

end Held

namespace Sample

/-- A publisher with a name that looks like markup. -/
def publisher : Reports.Publisher :=
  ⟨Utf8.str "pub_1", Utf8.str "<b>Tom & \"Co\"</b>", Utf8.str "USD", 0, 0, 0, 0⟩

def fetch (_ : List Char) : Fetched := .answered 200 (.publishers [publisher])

end Sample

theorem pages_hold_no_markup_sample : ∃ ps, respond (fun _ => []) Sample.fetch .get ['/'] = some ⟨200, .html ps⟩ ∧
    read .text (render specialchars ps) = tokens .text ps := by
  have h : respond (fun _ => []) Sample.fetch .get ['/'] = some ⟨200, .html _⟩ := rfl
  exact ⟨_, h, (pages_hold_no_markup _ _ h).1⟩

end Dashboard
