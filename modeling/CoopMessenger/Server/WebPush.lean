import CoopMessenger.Server.Errors
import CoopMessenger.Server.TopicNames

/-!
# Web push endpoints

The endpoints to which messages are pushed, and the regular expression that a new
one has to match.  It is built from patterns with one wildcard each, which stands for
any characters but a newline, also for the ones that end the host of a URL.

**Results.**
* `posted_accepted`: messages are posted only to endpoints that were accepted.
* `accepts_iff`: what the regular expression accepts.
* `endpoint_inside_iff`: for which endpoints acceptance puts the host inside the
  allowed domains.
-/

namespace CoopMessenger
namespace Server

namespace WebPush

section Model

def webPushAllowedEndpointsPatterns : List String :=
  ["https://*.google.com/", "https://*.googleapis.com/", "https://*.mozilla.com/",
    "https://*.mozaws.net/", "https://*.windows.com/", "https://*.microsoft.com/",
    "https://*.apple.com/"]

/-- `strings.ReplaceAll` for a single character. -/
def replaceAll
    (old : Char)
    (new s : List Char) : List Char :=
  s.flatMap (fun c => if c = old then new else [c])

/-- The regular expression of a pattern. -/
def patternRegex (pattern : List Char) : List Char :=
  replaceAll '*' ".+".toList (replaceAll '.' "\\.".toList pattern)

/-- A character, or at least one of any but a newline. -/
inductive Token where
  | char (c : Char)
  | anyPlus
deriving DecidableEq, Repr

/-- Reads a regular expression of escaped and plain characters and `.+`. -/
def tokens :
    List Char → List Token
  | '\\' :: c :: rest => .char c :: tokens rest
  | '.' :: '+' :: rest => .anyPlus :: tokens rest
  | c :: rest => .char c :: tokens rest
  | [] => []

/-- The text starts with a match. -/
def matchTokens :
    List Token → List Char → Bool
  | [], _ => true
  | _ :: _, [] => false
  | .char c :: ts, d :: s => c == d && matchTokens ts s
  | .anyPlus :: ts, d :: s =>
      d != '\n' && (matchTokens ts s || matchTokens (.anyPlus :: ts) s)

/-- `webPushAllowedEndpointsRegex.MatchString` -/
def matchesAllowed (endpoint : String) : Bool :=
  webPushAllowedEndpointsPatterns.any fun pattern =>
    matchTokens (tokens (patternRegex pattern.toList)) endpoint.toList

structure UpdateRequest where
  endpoint : String
  auth : String
  p256dh : String
  topics : List String
deriving DecidableEq, Repr

/-- A stored subscription with its topics. -/
structure Subscription where
  endpoint : String
  auth : String
  p256dh : String
  userID : String
  subscriberIP : String
  updatedAt : Nat
  topics : List String
deriving DecidableEq, Repr

/-- An error of the handler, of the lookup of topics, or of the store. -/
inductive Error where
  | http (e : ErrHTTP)
  | topics
  | tooManySubscriptions
  | constraint
deriving DecidableEq, Repr

def webPushTopicSubscribeLimit : Nat := 50

def subscriptionEndpointLimitPerSubscriberIP : Nat := 10

/-- `UpsertSubscription`: the columns and the topics of an endpoint are replaced. -/
def upsertSubscription
    (subs : List Subscription)
    (sub : Subscription) : Except Error (List Subscription) :=
  let known := subs.any (fun s => s.endpoint == sub.endpoint)
  let count := subs.countP (fun s => s.subscriberIP == sub.subscriberIP)
  if known = false ∧ subscriptionEndpointLimitPerSubscriberIP ≤ count then
    .error .tooManySubscriptions
  else if ¬sub.topics.Nodup then
    .error .constraint
  else if known then
    .ok (subs.map fun s => if s.endpoint = sub.endpoint then sub else s)
  else
    .ok (subs ++ [sub])

/-- Who sends a request, and what the sender may read. -/
structure Visitor where
  userID : String
  ip : String
  mayRead : String → Bool

/-- `handleWebPushUpdate`, for a body that was read or was not. -/
def handleWebPushUpdate
    (conf : TopicNames.Config)
    (topics : List String)
    (now : Nat)
    (v : Visitor)
    (subs : List Subscription)
    (body : Option UpdateRequest) : Except Error (List Subscription) :=
  match body with
  | none => .error (.http errHTTPBadRequestWebPushSubscriptionInvalid)
  | some req =>
      if req.endpoint = "" ∨ req.p256dh = "" ∨ req.auth = "" then
        .error (.http errHTTPBadRequestWebPushSubscriptionInvalid)
      else if matchesAllowed req.endpoint = false then
        .error (.http errHTTPBadRequestWebPushEndpointUnknown)
      else if webPushTopicSubscribeLimit < req.topics.length then
        .error (.http errHTTPBadRequestWebPushTopicCountTooHigh)
      else if (TopicNames.topicsFromIDs conf topics req.topics).2 = false then
        .error .topics
      else if conf.userManager = true ∧ req.topics.all v.mayRead = false then
        .error (.http errHTTPForbidden)
      else
        upsertSubscription subs
          ⟨req.endpoint, req.auth, req.p256dh, v.userID, v.ip, now, req.topics⟩

/-- What changes the stored subscriptions. -/
inductive Label where
  | update
      (conf : TopicNames.Config) (topics : List String) (now : Nat) (v : Visitor)
      (body : Option UpdateRequest)
  | delete (endpoint : String)
  | removeUser (userID : String)
  | removeExpired (before : Nat)

/-- One change; a failed request changes nothing. -/
def step
    (subs : List Subscription) :
    Label → List Subscription
  | .update conf topics now v body =>
      (handleWebPushUpdate conf topics now v subs body).toOption.getD subs
  | .delete endpoint => subs.filter (fun s => !decide (s.endpoint = endpoint))
  | .removeUser userID => subs.filter (fun s => !decide (s.userID = userID))
  | .removeExpired before => subs.filter (fun s => decide (before < s.updatedAt))

/-- Where the messages of a topic are posted. -/
def posted
    (subs : List Subscription)
    (topic : String) : List String :=
  (subs.filter (fun s => decide (topic ∈ s.topics))).map (·.endpoint)

end Model

section Hosts

/-- The domains of the push services. -/
def allowedDomains : List String :=
  ["google.com", "googleapis.com", "mozilla.com", "mozaws.net", "windows.com",
    "microsoft.com", "apple.com"]

def endsAuthority (c : Char) : Bool :=
  c == '/' || c == '?' || c == '#'

/-- The host of a URL, from what follows the two slashes. -/
def hostOf (s : List Char) : List Char :=
  ((s.takeWhile (fun c => !endsAuthority c)).rtakeWhile (· != '@')).takeWhile (· != ':')

/-- A proper subdomain of an allowed domain. -/
def IsSubdomain (host : List Char) : Prop :=
  ∃ domain ∈ allowedDomains, ∃ sub, sub ≠ [] ∧ host = sub ++ '.' :: domain.toList

/-- The scheme is https, and the host is a proper subdomain of an allowed domain. -/
def Inside (endpoint : String) : Prop :=
  ∃ rest, endpoint.toList = "https://".toList ++ rest ∧ IsSubdomain (hostOf rest)

/-- The wildcard stands for this text. -/
def Stands
    (endpoint : String)
    (wild : List Char) : Prop :=
  wild ≠ [] ∧ '\n' ∉ wild ∧ ∃ domain ∈ allowedDomains, ∃ rest,
    endpoint.toList = "https://".toList ++ (wild ++ '.' :: (domain.toList ++ '/' :: rest))

/--
What the wildcard stands for does not end the host, and some of it is left without the
user; or it has a host of its own that is allowed.
-/
def Harmless (wild : List Char) : Prop :=
  ((∀ c ∈ wild, endsAuthority c = false) ∧ ':' ∉ wild.rtakeWhile (· != '@') ∧
      wild.rtakeWhile (· != '@') ≠ []) ∨
    IsSubdomain (hostOf wild)

end Hosts

section Store

/-- A request that succeeds has an accepted endpoint, and stores no other one. -/
theorem handleWebPushUpdate_spec
    {conf : TopicNames.Config} {topics : List String} {now : Nat} {v : Visitor}
    {subs subs' : List Subscription} {body : Option UpdateRequest}
    (h : handleWebPushUpdate conf topics now v subs body = .ok subs') :
    ∃ req, body = some req ∧ matchesAllowed req.endpoint = true ∧
      ∀ s ∈ subs', s ∈ subs ∨ s.endpoint = req.endpoint := by
  cases body with
  | none =>
      cases h
  | some req =>
      refine ⟨req, rfl, ?_⟩
      unfold handleWebPushUpdate at h
      dsimp only at h
      split at h
      · cases h
      · split at h
        · cases h
        · next hmatch =>
            refine ⟨by simpa using hmatch, ?_⟩
            split at h
            · cases h
            · split at h
              · cases h
              · split at h
                · cases h
                · unfold upsertSubscription at h
                  extract_lets known count at h
                  split at h
                  · cases h
                  · split at h
                    · cases h
                    · split at h
                      · cases h
                        intro s hs
                        obtain ⟨s', hs', rfl⟩ := List.mem_map.mp hs
                        by_cases heq : s'.endpoint = req.endpoint
                        · rw [if_pos heq]
                          exact Or.inr rfl
                        · rw [if_neg heq]
                          exact Or.inl hs'
                      · cases h
                        intro s hs
                        rcases List.mem_append.mp hs with hs | hs
                        · exact Or.inl hs
                        · rw [List.mem_singleton.mp hs]
                          exact Or.inr rfl

/-- One change stores accepted endpoints only. -/
theorem accepted_step
    {subs : List Subscription}
    (h : ∀ s ∈ subs, matchesAllowed s.endpoint = true)
    (l : Label) :
    ∀ s ∈ step subs l, matchesAllowed s.endpoint = true := by
  cases l with
  | update conf topics now v body =>
      intro s hs
      rw [step] at hs
      cases hresult : handleWebPushUpdate conf topics now v subs body with
      | error e =>
          rw [hresult] at hs
          exact h s hs
      | ok subs' =>
          rw [hresult] at hs
          obtain ⟨req, -, hmatch, hsub⟩ := handleWebPushUpdate_spec hresult
          rcases hsub s hs with hs | heq
          · exact h s hs
          · rwa [heq]
  | delete endpoint =>
      exact fun s hs => h s (List.mem_of_mem_filter hs)
  | removeUser userID =>
      exact fun s hs => h s (List.mem_of_mem_filter hs)
  | removeExpired before =>
      exact fun s hs => h s (List.mem_of_mem_filter hs)

/-- A run stores accepted endpoints only. -/
theorem accepted_run
    (labels : List Label)
    {subs : List Subscription}
    (h : ∀ s ∈ subs, matchesAllowed s.endpoint = true) :
    ∀ s ∈ labels.foldl step subs, matchesAllowed s.endpoint = true := by
  induction labels generalizing subs with
  | nil =>
      exact h
  | cons l labels ih =>
      rw [List.foldl_cons]
      exact ih (accepted_step h l)

/-- Messages are posted only to endpoints that were accepted. -/
theorem posted_accepted
    (labels : List Label)
    (topic : String) :
    ∀ endpoint ∈ posted (labels.foldl step []) topic, matchesAllowed endpoint = true := by
  have hstored : ∀ s ∈ labels.foldl step [], matchesAllowed s.endpoint = true :=
    accepted_run labels fun s hs => absurd hs List.not_mem_nil
  intro endpoint hendpoint
  obtain ⟨s, hs, rfl⟩ := List.mem_map.mp hendpoint
  exact hstored s (List.mem_of_mem_filter hs)

end Store

section Matching

theorem matchTokens_map_char
    (text : List Char)
    (ts : List Token)
    (s : List Char) :
    matchTokens (text.map .char ++ ts) s = true ↔
      ∃ rest, s = text ++ rest ∧ matchTokens ts rest = true := by
  induction text generalizing s with
  | nil =>
      simp
  | cons c text ih =>
      cases s with
      | nil =>
          simp [matchTokens]
      | cons d s =>
          simp only [List.map_cons, List.cons_append, matchTokens, Bool.and_eq_true,
            beq_iff_eq, ih, List.cons.injEq]
          constructor
          · rintro ⟨rfl, rest, rfl, hrest⟩
            exact ⟨rest, ⟨rfl, rfl⟩, hrest⟩
          · rintro ⟨rest, ⟨rfl, rfl⟩, hrest⟩
            exact ⟨rfl, rest, rfl, hrest⟩

@[simp] theorem matchTokens_nil
    (s : List Char) :
    matchTokens [] s = true := by
  cases s <;> rfl

theorem matchTokens_anyPlus
    (ts : List Token)
    (s : List Char) :
    matchTokens (.anyPlus :: ts) s = true ↔
      ∃ wild rest, s = wild ++ rest ∧ wild ≠ [] ∧ '\n' ∉ wild ∧
        matchTokens ts rest = true := by
  induction s with
  | nil =>
      simp [matchTokens]
  | cons d s ih =>
      simp only [matchTokens, Bool.and_eq_true, bne_iff_ne, Bool.or_eq_true, ih]
      constructor
      · rintro ⟨hd, hmatch | ⟨wild, rest, rfl, -, hwild, hmatch⟩⟩
        · exact ⟨[d], s, rfl, by simp, by simpa using Ne.symm hd, hmatch⟩
        · exact ⟨d :: wild, rest, rfl, by simp, by simp [hwild, Ne.symm hd], hmatch⟩
      · rintro ⟨wild, rest, heq, hne, hwild, hmatch⟩
        cases wild with
        | nil =>
            exact absurd rfl hne
        | cons c wild =>
            simp only [List.cons_append, List.cons.injEq] at heq
            obtain ⟨rfl, rfl⟩ := heq
            simp only [List.mem_cons, not_or] at hwild
            refine ⟨Ne.symm hwild.1, ?_⟩
            cases wild with
            | nil =>
                exact Or.inl hmatch
            | cons c' wild =>
                exact Or.inr ⟨c' :: wild, rest, rfl, by simp, hwild.2, hmatch⟩

/-- Every pattern is a domain with a wildcard before it. -/
theorem patterns_eq :
    webPushAllowedEndpointsPatterns.map (fun p => tokens (patternRegex p.toList)) =
      allowedDomains.map fun domain =>
        "https://".toList.map Token.char ++ (.anyPlus ::
          (('.' :: (domain.toList ++ ['/'])).map Token.char ++ [])) := by
  decide

/-- What the regular expression accepts. -/
theorem accepts_iff
    (endpoint : String) :
    matchesAllowed endpoint = true ↔ ∃ wild, Stands endpoint wild := by
  have hmap : matchesAllowed endpoint = true ↔
      ∃ ts ∈ webPushAllowedEndpointsPatterns.map
        (fun p => tokens (patternRegex p.toList)),
        matchTokens ts endpoint.toList = true := by
    simp [matchesAllowed]
  rw [hmap, patterns_eq]
  constructor
  · rintro ⟨ts, hts, hmatch⟩
    obtain ⟨domain, hdomain, rfl⟩ := List.mem_map.mp hts
    obtain ⟨rest, hrest, hmatch⟩ := (matchTokens_map_char _ _ _).mp hmatch
    obtain ⟨wild, rest, rfl, hne, hwild, hmatch⟩ := (matchTokens_anyPlus _ _).mp hmatch
    obtain ⟨rest, rfl, -⟩ := (matchTokens_map_char _ _ _).mp hmatch
    exact ⟨wild, hne, hwild, domain, hdomain, rest, by simpa using hrest⟩
  · rintro ⟨wild, hne, hwild, domain, hdomain, rest, hrest⟩
    refine ⟨_, List.mem_map_of_mem hdomain, ?_⟩
    refine (matchTokens_map_char _ _ _).mpr ⟨_, hrest, ?_⟩
    refine (matchTokens_anyPlus _ _).mpr ⟨wild, _, rfl, hne, hwild, ?_⟩
    exact (matchTokens_map_char _ _ _).mpr ⟨rest, by simp, matchTokens_nil rest⟩

end Matching

section Hosts

theorem domain_chars :
    ∀ domain ∈ allowedDomains, ∀ c ∈ '.' :: domain.toList,
      endsAuthority c = false ∧ c ≠ '@' ∧ c ≠ ':' := by
  have hall : ∀ domain ∈ allowedDomains, (('.' :: domain.toList).all fun c =>
      decide (endsAuthority c = false ∧ c ≠ '@' ∧ c ≠ ':')) = true := by
    decide
  intro domain hdomain c hc
  exact of_decide_eq_true (List.all_eq_true.mp (hall domain hdomain) c hc)

/-- A domain is no proper subdomain. -/
theorem not_isSubdomain_domain
    {domain : String}
    (hdomain : domain ∈ allowedDomains) :
    ¬IsSubdomain ('.' :: domain.toList) := by
  have hsuffix : ∀ d ∈ allowedDomains, ∀ d' ∈ allowedDomains,
      ¬('.' :: d'.toList) <:+ d.toList := by
    decide
  rintro ⟨domain', hdomain', sub, hsub, heq⟩
  cases sub with
  | nil =>
      exact hsub rfl
  | cons c sub =>
      simp only [List.cons_append, List.cons.injEq] at heq
      exact hsuffix domain hdomain domain' hdomain' ⟨sub, heq.2.symm⟩

theorem takeWhile_authority
    {wild : List Char}
    (hwild : ∀ c ∈ wild, endsAuthority c = false)
    {domain : String}
    (hdomain : domain ∈ allowedDomains)
    (rest : List Char) :
    (wild ++ '.' :: (domain.toList ++ '/' :: rest)).takeWhile (fun c => !endsAuthority c) =
      wild ++ '.' :: domain.toList := by
  have hall : ∀ c ∈ wild ++ '.' :: domain.toList, (!endsAuthority c) = true := by
    intro c hc
    rcases List.mem_append.mp hc with hc | hc
    · simp [hwild c hc]
    · simp [(domain_chars domain hdomain c hc).1]
  have hassoc : wild ++ '.' :: (domain.toList ++ '/' :: rest) =
      (wild ++ '.' :: domain.toList) ++ '/' :: rest := by
    simp
  rw [hassoc, List.takeWhile_append_of_pos hall]
  simp [endsAuthority]

/-- What follows the last `@` goes on with a text that has none. -/
theorem rtakeWhile_append
    {wild text : List Char}
    (htext : '@' ∉ text) :
    (wild ++ text).rtakeWhile (· != '@') = wild.rtakeWhile (· != '@') ++ text := by
  have hreverse : ∀ c ∈ text.reverse, (c != '@') = true := by
    intro c hc
    rw [bne_iff_ne]
    rintro rfl
    exact htext (List.mem_reverse.mp hc)
  rw [List.rtakeWhile, List.reverse_append, List.takeWhile_append_of_pos hreverse,
    List.reverse_append, List.reverse_reverse, ← List.rtakeWhile]

/-- The host is inside an allowed domain if what the wildcard stands for is harmless. -/
theorem isSubdomain_iff
    {wild rest : List Char} {domain : String}
    (hdomain : domain ∈ allowedDomains) :
    IsSubdomain (hostOf (wild ++ '.' :: (domain.toList ++ '/' :: rest))) ↔
      Harmless wild := by
  by_cases hwild : ∀ c ∈ wild, endsAuthority c = false
  · have hself : wild.takeWhile (fun c => !endsAuthority c) = wild :=
      List.takeWhile_eq_self_iff.mpr fun c hc => by simp [hwild c hc]
    have hat : '@' ∉ '.' :: domain.toList :=
      fun hc => (domain_chars domain hdomain _ hc).2.1 rfl
    have hcolon : ':' ∉ '.' :: domain.toList :=
      fun hc => (domain_chars domain hdomain _ hc).2.2 rfl
    rw [hostOf, takeWhile_authority hwild hdomain, rtakeWhile_append hat, Harmless, hostOf,
      hself]
    generalize wild.rtakeWhile (· != '@') = left
    by_cases hleft : ':' ∈ left
    · -- the host ends in the wildcard
      obtain ⟨before, after, rfl, hbefore⟩ := List.eq_append_cons_of_mem hleft
      have hpos : ∀ c ∈ before, (c != ':') = true := by
        intro c hc
        rw [bne_iff_ne]
        rintro rfl
        exact hbefore hc
      rw [List.append_assoc, List.takeWhile_append_of_pos hpos,
        List.takeWhile_append_of_pos hpos]
      simp
    · -- the host goes on with the domain
      have hpos : ∀ c ∈ left ++ '.' :: domain.toList, (c != ':') = true := by
        intro c hc
        rw [bne_iff_ne]
        rintro rfl
        exact (List.mem_append.mp hc).elim hleft hcolon
      rw [List.takeWhile_eq_self_iff.mpr hpos]
      by_cases hempty : left = []
      · subst hempty
        refine iff_of_false (not_isSubdomain_domain hdomain) ?_
        rintro (⟨-, -, hne⟩ | ⟨domain', -, sub, hsub, heq⟩)
        · exact hne rfl
        · simp at heq
      · exact iff_of_true ⟨domain, hdomain, left, hempty, rfl⟩
          (Or.inl ⟨hwild, hleft, hempty⟩)
  · -- the authority ends in the wildcard
    have hshort : (wild.takeWhile (fun c => !endsAuthority c)).length ≠ wild.length := by
      intro hlength
      refine hwild fun c hc => ?_
      have hself := (List.takeWhile_prefix _).eq_of_length hlength
      simpa using List.takeWhile_eq_self_iff.mp hself c hc
    have htake : (wild ++ '.' :: (domain.toList ++ '/' :: rest)).takeWhile
        (fun c => !endsAuthority c) = wild.takeWhile (fun c => !endsAuthority c) := by
      rw [List.takeWhile_append, if_neg hshort]
    rw [hostOf, htake, ← hostOf, Harmless]
    exact ⟨Or.inr, fun h => h.resolve_left fun hclean => hwild hclean.1⟩

/--
Acceptance puts the host of an endpoint inside an allowed domain if and only if
whatever the wildcard stands for is harmless.
-/
theorem endpoint_inside_iff
    (endpoint : String) :
    (∀ (conf : TopicNames.Config) (topics : List String) (now : Nat) (v : Visitor)
        (subs subs' : List Subscription) (req : UpdateRequest),
        req.endpoint = endpoint →
        handleWebPushUpdate conf topics now v subs (some req) = .ok subs' →
          Inside endpoint) ↔
      ∀ wild, Stands endpoint wild → Harmless wild := by
  constructor
  · rintro h wild ⟨hne, hnewline, domain, hdomain, rest, hrest⟩
    have hmatch : matchesAllowed endpoint = true :=
      (accepts_iff endpoint).mpr ⟨wild, hne, hnewline, domain, hdomain, rest, hrest⟩
    have hnonempty : endpoint ≠ "" := by
      rintro rfl
      simp at hrest
    obtain ⟨rest', hrest', hhost⟩ := h ⟨⟨[], 0⟩, false⟩ [] 0 ⟨"", "", fun _ => true⟩ [] _
      ⟨endpoint, "a", "p", []⟩ rfl
      (by simp [handleWebPushUpdate, hnonempty, hmatch, TopicNames.topicsFromIDs,
        upsertSubscription, subscriptionEndpointLimitPerSubscriberIP]; rfl)
    rw [hrest, List.append_cancel_left_eq] at hrest'
    subst hrest'
    exact (isSubdomain_iff hdomain).mp hhost
  · rintro h conf topics now v subs subs' req rfl hok
    obtain ⟨req', hreq, hmatch, -⟩ := handleWebPushUpdate_spec hok
    cases hreq
    obtain ⟨wild, hstands⟩ := (accepts_iff _).mp hmatch
    have hharmless := h wild hstands
    obtain ⟨-, -, domain, hdomain, rest, hrest⟩ := hstands
    exact ⟨_, hrest, (isSubdomain_iff hdomain).mpr hharmless⟩

/-- An endpoint of another host is accepted, as its path has an allowed domain. -/
theorem endpoint_outside_accepted :
    ¬ ∀ (conf : TopicNames.Config) (topics : List String) (now : Nat) (v : Visitor)
      (subs subs' : List Subscription) (req : UpdateRequest),
      handleWebPushUpdate conf topics now v subs (some req) = .ok subs' →
        Inside req.endpoint := by
  intro h
  obtain ⟨rest, hrest, domain, hdomain, sub, -, hsub⟩ := h ⟨⟨[], 0⟩, false⟩ ["up"] 0
    ⟨"", "", fun _ => true⟩ []
    [⟨"https://evil.com/x.google.com/", "a", "p", "", "", 0, ["up"]⟩]
    ⟨"https://evil.com/x.google.com/", "a", "p", ["up"]⟩ (by decide)
  have hother : ∀ d ∈ allowedDomains, ¬('.' :: d.toList) <:+ "evil.com".toList := by
    decide
  have hhost : hostOf rest = "evil.com".toList := by
    have hsplit : "https://".toList ++ "evil.com/x.google.com/".toList =
        "https://".toList ++ rest :=
      Eq.trans (by decide) hrest
    rw [← List.append_cancel_left hsplit]
    decide
  exact hother domain hdomain ⟨sub, (hhost.symm.trans hsub).symm⟩

end Hosts

end WebPush
end Server
end CoopMessenger
