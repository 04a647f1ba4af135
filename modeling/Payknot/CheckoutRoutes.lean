import Payknot.EventSlugs

/-! The routes of the server. An event's checkout page has its slug as the last segment below
`/api/checkout/`, where the checkout API has eight endpoints of its own. -/
namespace Payknot.Server
open GoText Interleaving Machine

section Mux
variable {Endpoint : Type}

def covers (pattern path : String) : Bool :=
  pattern.toList.getLast? = some '/' && pattern.toList.isPrefixOf path.toList

def longest : List (String × Endpoint) → Option (String × Endpoint)
  | [] => none
  | route :: rest =>
      match longest rest with
      | none => some route
      | some other => if route.1.length < other.1.length then some other else some route

/-- `ServeMux`: an exact pattern wins, then the longest prefix. -/
def serveMux (routes : List (String × Endpoint)) (path : String) : Option Endpoint :=
  match routes.find? (·.1 = path) with
  | some route => some route.2
  | none => (longest (routes.filter fun route => covers route.1 path)).map (·.2)

end Mux

inductive Endpoint where
  | register | login | googleLogin | verifyEmail | resendVerification | forgotPassword | resetPassword
  | me | logout
  | eventsRoot | eventsSubroutes | importLumaEvent
  | agentKeysRoot | revokeAgentKey | agentPATsRoot | revokeAgentPAT
  | createCheckoutInvoice | cancelCheckoutInvoice | confirmCheckoutPayment | recheckCheckoutPayment
  | manualVerifyCheckoutPayment | getParticipantStatus | detectCheckoutPayment | getCheckoutStatus
  | getCheckoutBySlug
  | agentAuthNonce | agentAuthToken | agentAuthPAT | agentAuthMe | agentCheckoutCreate
  | v1CreatePaymentSession | v1PaymentSessionsSubroutes
  deriving DecidableEq

/-- `main`. -/
def routes : List (String × Endpoint) :=
  [("/api/auth/register", .register), ("/api/auth/login", .login), ("/api/auth/google", .googleLogin),
    ("/api/auth/verify-email", .verifyEmail), ("/api/auth/resend-verification", .resendVerification),
    ("/api/auth/forgot-password", .forgotPassword), ("/api/auth/reset-password", .resetPassword),
    ("/api/auth/me", .me), ("/api/auth/logout", .logout),
    ("/api/events", .eventsRoot), ("/api/events/", .eventsSubroutes),
    ("/api/events/import/luma", .importLumaEvent),
    ("/api/agent-keys", .agentKeysRoot), ("/api/agent-keys/revoke", .revokeAgentKey),
    ("/api/agent/pats", .agentPATsRoot), ("/api/agent/pats/revoke", .revokeAgentPAT),
    ("/api/checkout/invoice", .createCheckoutInvoice), ("/api/checkout/cancel", .cancelCheckoutInvoice),
    ("/api/checkout/confirm", .confirmCheckoutPayment), ("/api/checkout/recheck", .recheckCheckoutPayment),
    ("/api/checkout/manual-verify", .manualVerifyCheckoutPayment),
    ("/api/checkout/participant-status", .getParticipantStatus),
    ("/api/checkout/detect", .detectCheckoutPayment), ("/api/checkout/status", .getCheckoutStatus),
    ("/api/checkout/", .getCheckoutBySlug),
    ("/api/agent/auth/nonce", .agentAuthNonce), ("/api/agent/auth/token", .agentAuthToken),
    ("/api/agent/auth/pat", .agentAuthPAT), ("/api/agent/auth/me", .agentAuthMe),
    ("/api/agent/checkout/create", .agentCheckoutCreate),
    ("/api/v1/payment-sessions", .v1CreatePaymentSession),
    ("/api/v1/payment-sessions/", .v1PaymentSessionsSubroutes)]

/-- The segments below `/api/checkout/` that have an endpoint of their own. -/
def fixedEndpoints : List String :=
  ["invoice", "cancel", "confirm", "recheck", "manual-verify", "participant-status", "detect", "status"]

def checkoutPath (slug : String) : String := "/api/checkout/" ++ slug

section Dispatch
variable {slug : String}

theorem checkoutPath_toList : (checkoutPath slug).toList = "/api/checkout/".toList ++ slug.toList :=
  String.toList_append

/-- Every pattern below `/api/checkout/` is that prefix itself or a fixed endpoint's. -/
theorem route_below {route : String × Endpoint} (member : route ∈ routes) (pattern : route.1 = checkoutPath slug) :
    slug = "" ∨ slug ∈ fixedEndpoints := by
  have below : routes.all (fun route => !("/api/checkout/".toList.isPrefixOf route.1.toList) ||
      decide (String.ofList (route.1.toList.drop 14) ∈ "" :: fixedEndpoints)) = true := by decide +kernel
  have here := List.all_eq_true.mp below route member
  have length : "/api/checkout/".toList.length = 14 := by decide
  rw [pattern, checkoutPath_toList, List.isPrefixOf_iff_prefix.mpr (List.prefix_append _ _), ← length,
    List.drop_left, String.ofList_toList] at here
  simpa using here

theorem fixed_route (fixed : slug ∈ fixedEndpoints) : ∃ endpoint, (checkoutPath slug, endpoint) ∈ routes := by
  have listed : fixedEndpoints.all (fun name => routes.any fun route => decide (route.1 = checkoutPath name)) = true := by
    decide
  obtain ⟨route, member, same⟩ := List.any_eq_true.mp (List.all_eq_true.mp listed slug fixed)
  exact ⟨route.2, by rw [← of_decide_eq_true same]; exact member⟩

theorem covering : routes.filter (fun route => covers route.1 (checkoutPath slug)) =
    [("/api/checkout/", .getCheckoutBySlug)] := by
  have apart : routes.all (fun route => decide (route.1 = "/api/checkout/") ||
      (decide (route.1.toList.getLast? ≠ some '/') || (!(route.1.toList.isPrefixOf "/api/checkout/".toList) &&
        !("/api/checkout/".toList.isPrefixOf route.1.toList)))) = true := by decide +kernel
  have only : ∀ route ∈ routes, covers route.1 (checkoutPath slug) = decide (route.1 = "/api/checkout/") := by
    intro route member
    have below : "/api/checkout/".toList <+: (checkoutPath slug).toList := by
      rw [checkoutPath_toList]
      exact List.prefix_append _ _
    by_cases own : route.1 = "/api/checkout/"
    · have slash : "/api/checkout/".toList.getLast? = some '/' := by decide
      rw [own, covers, slash, List.isPrefixOf_iff_prefix.mpr below]
      rfl
    · have other := List.all_eq_true.mp apart route member
      simp only [own, decide_false, Bool.false_or, Bool.or_eq_true, decide_eq_true_eq, Bool.and_eq_true,
        Bool.not_eq_true', ← Bool.not_eq_true, List.isPrefixOf_iff_prefix] at other
      rw [decide_eq_false own, covers, Bool.eq_false_iff]
      intro covered
      rw [Bool.and_eq_true, decide_eq_true_eq, List.isPrefixOf_iff_prefix] at covered
      rcases other with plain | ⟨above, within⟩
      · exact plain covered.1
      · -- Of two prefixes of one path one is a prefix of the other.
        rcases List.prefix_or_prefix_of_prefix covered.2 below with first | second
        · exact above first
        · exact within second
  rw [List.filter_congr only]
  decide

/-- A path below `/api/checkout/` goes to the page's handler unless it is a fixed endpoint's. -/
theorem dispatched_iff (filled : slug ≠ "") :
    serveMux routes (checkoutPath slug) = some .getCheckoutBySlug ↔ slug ∉ fixedEndpoints := by
  unfold serveMux
  rw [covering]
  cases found : routes.find? (·.1 = checkoutPath slug) with
  | none =>
      have absent : slug ∉ fixedEndpoints := by
        intro fixed
        obtain ⟨endpoint, member⟩ := fixed_route fixed
        have other := List.find?_eq_none.mp found _ member
        simp at other
      simp [longest, absent]
  | some route =>
      have member := List.mem_of_find?_eq_some found
      have pattern : route.1 = checkoutPath slug := by simpa using List.find?_some found
      have fixed : slug ∈ fixedEndpoints := (route_below member pattern).resolve_left filled
      have others : routes.all (fun route => decide (route.2 = .getCheckoutBySlug → route.1 = "/api/checkout/")) = true := by
        decide
      constructor
      · intro dispatched
        have own := of_decide_eq_true (List.all_eq_true.mp others route member) (Option.some.inj dispatched)
        rw [pattern] at own
        have lengths := congrArg (fun text => text.toList.length) own
        simp only [checkoutPath_toList, List.length_append] at lengths
        have blank : slug.toList = [] := List.length_eq_zero_iff.mp (by omega)
        exact absurd (String.toList_eq_nil_iff.mp blank) filled
      · intro absent
        exact absurd fixed absent

-- A numbered slug ends in a digit, which no fixed endpoint does.
theorem Numbered.unfixed {base : String} (numbered : Numbered base slug) : slug ∉ fixedEndpoints := by
  obtain ⟨n, rfl⟩ := numbered
  intro fixed
  have letters : fixedEndpoints.all (fun name => name.toList.getLast?.all fun c => !c.isDigit) = true := by
    decide
  have ends := List.all_eq_true.mp letters _ fixed
  have digits := (toDigits_digits n).2
  have filled : Nat.toDigits 10 n ≠ [] := Nat.toDigits_ne_nil
  have last : (base ++ "-" ++ toString n).toList.getLast? = some ((Nat.toDigits 10 n).getLast filled) := by
    have digit_list : (toString n).toList = Nat.toDigits 10 n := by simp [Nat.repr]
    rw [String.toList_append, digit_list, List.getLast?_append_of_ne_nil _ filled, List.getLast?_eq_some_getLast filled]
  rw [last] at ends
  have digit := List.all_eq_true.mp digits _ (List.getLast_mem filled)
  simp [digit] at ends

end Dispatch

section Page
variable {e : Environment} {w : World}

abbrev Sound (e : Environment) : Performing Reply World := (machine e).performing fun choice => choice.fault = none

theorem ensures_core_sql {Result : Type} {post : Result → World → Prop} {statement : Sql}
    {next : Except Fault statement.Result → Handler Result} :
    (core (sql statement) >>= next).Ensures (Sound e) post w ↔
      (next (settle none (statement.run e.platform w.core) w.core).1).Ensures (Sound e) post
        { w with core := (settle none (statement.run e.platform w.core) w.core).2 } := by
  rw [Program.ensures_bind]
  change Program.Ensures (Sound e) _ (.call (Op.core (.sql statement)) .ret) w ↔ _
  rw [Program.ensures_call]
  constructor
  · intro held
    have outcome := held _ _ ⟨⟨none, none, none, .unavailable, .unreachable⟩, rfl, rfl⟩
    rw [Program.ensures_ret] at outcome
    exact outcome
  · rintro held reply middle ⟨choice, is_up, executed⟩
    change some _ = some (reply, middle) at executed
    rw [is_up] at executed
    cases executed
    rw [Program.ensures_ret]
    exact held

/-- GET of the slug's path is dispatched to `GetCheckoutBySlug`, and in this state its every run
without a failure answers with this event. -/
def Shown (e : Environment) (w : World) (slug : String) (row : EventRow) : Prop :=
  serveMux routes (checkoutPath slug) = some .getCheckoutBySlug ∧
    (handler e (.checkoutBySlug .get (checkoutPath slug))).Ensures (Sound e)
      (fun answer _ => answer = .checkoutEvent (checkoutEventResponse e row)) w

theorem pathSlug {slug : String} (addressable : Addressable slug) :
    trimSlashes (trimPrefix (checkoutPath slug) "/api/checkout/") = slug := by
  have tail : trimPrefix (checkoutPath slug) "/api/checkout/" = slug := by
    rw [trimPrefix, trimPrefixRunes, checkoutPath_toList,
      if_pos (List.isPrefixOf_iff_prefix.mpr (List.prefix_append _ _)), List.drop_left, String.ofList_toList]
  have segment : ∀ c ∈ slug.toList, decide (c = '/') = false := by
    intro c member
    refine decide_eq_false fun slash => ?_
    have kept := addressable.2 c member
    rw [slash] at kept
    revert kept
    decide
  rw [tail, trimSlashes, trimmed_self (fun c head => segment c (List.mem_of_mem_head? head))
    (fun c last => segment c (List.mem_of_mem_getLast? last)), String.ofList_toList]

-- The handler answers an active event under its slug.
theorem shown_by_handler (addressed : Addressed w.core) {row : EventRow} (stored : row ∈ w.core.events)
    (active : row.status = "active") :
    (handler e (.checkoutBySlug .get (checkoutPath row.slug))).Ensures (Sound e)
      (fun answer _ => answer = .checkoutEvent (checkoutEventResponse e row)) w := by
  have addressable := addressed.slugs row stored
  have found : (w.core.events.find? fun other => other.slug = row.slug && other.status = "active") = some row := by
    cases search : w.core.events.find? fun other => other.slug = row.slug && other.status = "active" with
    | none =>
        have none_such := List.find?_eq_none.mp search row stored
        simp [active] at none_such
    | some other =>
        have same := List.find?_some search
        simp only [Bool.and_eq_true, decide_eq_true_eq] at same
        rw [addressed.same (List.mem_of_find?_eq_some search) stored same.1]
  change (getCheckoutBySlug e .get (checkoutPath row.slug)).Ensures (Sound e) _ w
  unfold getCheckoutBySlug
  simp only [ne_eq, not_true_eq_false, if_false]
  rw [pathSlug addressable, if_neg addressable.1, ensures_core_sql]
  simp only [Sql.run, settle]
  rw [found]
  simp only [Program.ensures_pure]

end Page

/-- Whenever the creation of an event has been answered and the event is there and active, its
page is shown under the slug answered, but for a title that makes the name of a fixed endpoint
when no event had that slug. -/
theorem created_event_shown_iff {e : Environment} {init cfg : Service} (start : init.threads = [])
    (catalogued : Catalogued init.world.core) (addressed : Addressed init.world.core)
    (run : (machine e).Reaches anyStep init cfg) {thread : ServiceThread} (member : thread ∈ cfg.threads)
    {c : Credentials} {body : CreateEventRequest} (asked : thread.request = .events c (some body))
    {response : CreateEventResponse}
    (created : thread.program = .ret (.core (.responded 200 (.event response)))) {row : EventRow}
    (stored : row ∈ cfg.world.core.events) (same : row.id = response.eventID) (active : row.status = "active") :
    Shown e cfg.world response.slug row ↔
      ¬ (buildEventSlug e.platform body.title ∈ fixedEndpoints ∧
        SlugFree (buildEventSlug e.platform body.title) thread.log) := by
  obtain ⟨disciplined, addressed, placed⟩ := slugs_stored start catalogued addressed run
  obtain ⟨chosen, ownerEmail, columns, saw⟩ := disciplined.ends member created c (some body) response asked rfl
  have held : Holds response.eventID response.slug cfg.world.core := placed thread member _ saw
  have slug := held.2 row stored same
  have addressable := addressed.slugs row stored
  have shown : Shown e cfg.world response.slug row ↔ response.slug ∉ fixedEndpoints := by
    rw [← slug, Shown, dispatched_iff addressable.1]
    exact and_iff_left (shown_by_handler addressed stored active)
  obtain ⟨c', body', asked', filled, chosen⟩ := chosen
  cases asked.symm.trans asked'
  rw [shown]
  rcases chosen with ⟨base, free⟩ | ⟨numbered, taken⟩
  · rw [base]
    simp [free]
  · simp [numbered.unfixed, taken]

section Deployment

theorem opening_addressed : Addressed opening.world.core where
  distinct := by decide
  slugs row member := by
    have slugs : events.all (fun row => decide (row.slug ≠ "") && row.slug.toList.all isSlugRune) = true := by
      decide
    have here := List.all_eq_true.mp slugs row member
    rw [Bool.and_eq_true, decide_eq_true_eq, List.all_eq_true] at here
    exact here

def creation (title : String) : Request :=
  .events (byAlice "POST" "/api/events") (some
    { title := title, description := "", eventImageURL := "", eventDate := ""
      checkoutExpiresAt := "2030-01-01T00:00:00Z", location := "", organizerName := ""
      merchantWallet := Mainnet.merchant, amountUSDC := 2, eventSource := "custom", sourceURL := ""
      participantFormSchema := [⟨"email", true⟩], paymentMethods := ⟨true, true⟩ })

def createdUnder (slug : String) (w : Payknot.World) (thread : ServiceThread) : Bool :=
  match thread.request, thread.program with
  | .events _ (some _), .ret (.core (.responded 200 (.event response))) =>
      response.slug = slug && w.events.any fun row => row.id = response.eventID && row.status = "active"
  | _, _ => false

theorem created_of (title slug : String)
    (runs : ((machine environment).run (fun _ _ => true) (.arrive (creation title) :: steps 0 5) opening).any
      (fun cfg => cfg.threads.any (createdUnder slug cfg.world.core)) = true) :
    ∃ (cfg : Service) (thread : ServiceThread) (c : Credentials) (body : CreateEventRequest)
      (response : CreateEventResponse) (row : EventRow),
      (machine environment).Reaches anyStep opening cfg ∧ thread ∈ cfg.threads ∧
      thread.request = .events c (some body) ∧
      thread.program = .ret (.core (.responded 200 (.event response))) ∧ response.slug = slug ∧
      row ∈ cfg.world.core.events ∧ row.id = response.eventID ∧ row.status = "active" := by
  obtain ⟨cfg, run, done⟩ := run_meets (machine environment) (fun _ _ => true) _ _ _ runs
  obtain ⟨thread, member, created⟩ := List.any_eq_true.mp done
  unfold createdUnder at created
  split at created
  · next c body response asked ended =>
    simp only [Bool.and_eq_true, decide_eq_true_eq, List.any_eq_true] at created
    obtain ⟨named, row, stored, same, active⟩ := created
    exact ⟨cfg, thread, c, body, response, row, run.any, member, asked, ended, named, stored, same, active⟩
  · cases created

theorem created_event_shown_iff_alice :
    ∃ (cfg : Service) (thread : ServiceThread) (body : CreateEventRequest) (response : CreateEventResponse)
      (row : EventRow), row ∈ cfg.world.core.events ∧ response.slug = "book-club" ∧
      (Shown environment cfg.world response.slug row ↔
        ¬ (buildEventSlug environment.platform body.title ∈ fixedEndpoints ∧
          SlugFree (buildEventSlug environment.platform body.title) thread.log)) := by
  obtain ⟨cfg, thread, c, body, response, row, run, member, asked, created, named, stored, same, active⟩ :=
    created_of "Book Club" "book-club" (by decide +kernel)
  exact ⟨cfg, thread, body, response, row, stored, named, created_event_shown_iff rfl opening_catalogued
    opening_addressed run member asked created stored same active⟩

/-- The page of an event with the title Status is asked of another endpoint. -/
theorem status_event_hidden :
    ∃ (cfg : Service) (thread : ServiceThread) (c : Credentials) (body : CreateEventRequest)
      (response : CreateEventResponse) (row : EventRow),
      (machine environment).Reaches anyStep opening cfg ∧ thread ∈ cfg.threads ∧
      thread.request = .events c (some body) ∧
      thread.program = .ret (.core (.responded 200 (.event response))) ∧
      row ∈ cfg.world.core.events ∧ row.id = response.eventID ∧ row.status = "active" ∧
      ¬ Shown environment cfg.world response.slug row := by
  obtain ⟨cfg, thread, c, body, response, row, run, member, asked, created, named, stored, same, active⟩ :=
    created_of "Status" "status" (by decide +kernel)
  refine ⟨cfg, thread, c, body, response, row, run, member, asked, created, stored, same, active, ?_⟩
  rintro ⟨dispatched, _⟩
  rw [named] at dispatched
  revert dispatched
  decide

end Deployment

end Payknot.Server
