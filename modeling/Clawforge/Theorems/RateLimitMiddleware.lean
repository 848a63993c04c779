import Clawforge.Api.RateLimitMiddleware
import Clawforge.Kit.Slots
import Clawforge.Theorems.RateLimiter
import Mathlib

/-!
# What an anonymous client may try

Where all requests of the client are on one account, and nobody else uses it, the two calls of the
limiter bound what it may try, and what its headers say changes nothing. An account is named by a
bearer token before anything is known of it, so a client that makes up tokens has as many accounts
as it likes.
-/

namespace Clawforge.RateLimiter

open Kit Text TSys List

variable {env : Env} {source id id' : String} {g g' k k' : Gate}

/-! ## The property -/

/-- In no window does the middleware let more attempts through than the policy of their path
allows. -/
def Bounded (g : Gate) : Prop :=
  ∀ path method policy, (path = "/admin/auth/login" ∨ path = "/admin/auth/bootstrap") →
    policyFor path method none = some policy →
    ∀ v ∈ windowOf (seconds policy.windowSecs) (g.passages path), v.count ≤ policy.limit

/-- Which requests are let through. -/
def answers (g : Gate) : List Stage := g.requests.map Prod.snd

/-- The same event, but for what the headers of a request say. -/
def SameButHeaders : Event → Event → Prop
  | .arrive r, .arrive r' => r.path = r'.path ∧ r.method = r'.method ∧ r.source = r'.source
  | a, a' => a = a'

/-! ## The counters of an account -/

/-- The two doors an anonymous client may knock at. -/
inductive Endpoint
  | login
  | bootstrap
deriving DecidableEq, Repr

def Endpoint.path : Endpoint → String
  | .login => "/admin/auth/login"
  | .bootstrap => "/admin/auth/bootstrap"

def Endpoint.admission (identity : String) : Endpoint → Admission
  | .login => ⟨Endpoint.path .login, ⟨"login", 5, 60⟩, identity, 10⟩
  | .bootstrap => ⟨Endpoint.path .bootstrap, ⟨"bootstrap", 3, 60 * 60⟩, identity, 6⟩

inductive Counter
  | global (e : Endpoint)
  | endpoint (e : Endpoint)
deriving DecidableEq, Repr

def Counter.key (identity : String) : Counter → String
  | .global e => (e.admission identity).globalKey
  | .endpoint e => (e.admission identity).endpointKey

/-- What a counter allows does not depend on whose it is. -/
def Counter.rate : Counter → RateLimit
  | .global e => (e.admission "").globalRate
  | .endpoint e => (e.admission "").endpointRate

/-- A call with that window throws no live bucket of the account away. -/
def Spared (id : String) (w : World) (window : Nat) : Prop :=
  10000 < w.buckets.rows.length → ∀ c : Counter, ∀ b ∈ w.buckets.get? (c.key id),
    w.now - b.started < c.rate.window → w.now - b.started < window

/-- The client has one account, `id`, and nobody else uses it or throws its buckets away. -/
def OneAccount (env : Env) (id : String) (g : Gate) : Event → Prop
  | .tick _ => True
  | .arrive r => identityOf env r = id
  | .global i | .endpoint i =>
    ∀ p ∈ g.requests[i]?, Spared id g.limiter (seconds p.1.policy.windowSecs)
  | .other key rate => (∀ c : Counter, key ≠ c.key id) ∧ Spared id g.limiter rate.window

/-- The reading of a request of the client depends on its headers by its account only. -/
theorem admissionOf_anonymous {r : Request} (hr : Anonymous env source r) :
    ∃ e : Endpoint, r.path = e.path ∧ admissionOf env r = some (e.admission (identityOf env r)) := by
  obtain ⟨hpath | hpath, -, -⟩ := hr
  · refine ⟨.login, hpath, ?_⟩
    unfold admissionOf internalEventPolicy
    rw [hpath]
    rfl
  · refine ⟨.bootstrap, hpath, ?_⟩
    unfold admissionOf internalEventPolicy
    rw [hpath]
    rfl

theorem global_ne_endpoint (e f : Endpoint) :
    (e.admission id).globalKey ≠ (f.admission id).endpointKey := by
  intro h
  have hhead := congrArg (fun s => s.toList.head?) h
  unfold Admission.globalKey Admission.endpointKey at hhead
  simp at hhead

theorem globalKey_injective {e f : Endpoint}
    (h : (e.admission id).globalKey = (f.admission id).globalKey) : e = f := by
  have hsecs : toString (e.admission "").policy.windowSecs =
      toString (f.admission "").policy.windowSecs := by
    cases e <;> cases f <;> exact (String.append_right_inj _).1 h
  cases e <;> cases f <;> first | rfl | exact absurd hsecs (by decide)

theorem endpointKey_injective {e f : Endpoint}
    (h : (e.admission id).endpointKey = (f.admission id).endpointKey) : e = f := by
  have hpath : "endpoint:" ++ (e.admission "").policy.class ++ ":" ++ e.path ++ ":" =
      "endpoint:" ++ (f.admission "").policy.class ++ ":" ++ f.path ++ ":" := by
    cases e <;> cases f <;> exact (String.append_left_inj _).1 h
  cases e <;> cases f <;> first | rfl | exact absurd hpath (by decide)

/-- The counters of an account are apart. -/
theorem Counter.key_injective {c d : Counter} (h : c.key id = d.key id) : c = d := by
  cases c with
  | global e =>
    cases d with
    | global f => rw [globalKey_injective h]
    | endpoint f => exact absurd h (global_ne_endpoint e f)
  | endpoint e =>
    cases d with
    | global f => exact absurd h.symm (global_ne_endpoint f e)
    | endpoint f => rw [endpointKey_injective h]

/-! ## The invariant -/

/-- All requests of the client are on the account, whose counters keep their windows, and nothing
passes that its endpoint's counter does not allow. -/
structure Owned (id : String) (g : Gate) : Prop where
  requests : ∀ p ∈ g.requests, ∃ e : Endpoint, p.1 = e.admission id
  kept : ∀ c : Counter, Kept g.limiter (c.key id) c.rate
  passages : ∀ e : Endpoint,
    Forall₂ Call.Within (g.passages e.path) (g.limiter.calls ((Counter.endpoint e).key id))

theorem globalRate_admission (e : Endpoint) (id : String) :
    (e.admission id).globalRate = (Counter.global e).rate := by
  cases e <;> rfl

theorem endpointRate_admission (e : Endpoint) (id : String) :
    (e.admission id).endpointRate = (Counter.endpoint e).rate := by
  cases e <;> rfl

theorem countGlobal_limiter (i : Nat) (e : Endpoint) :
    (g.countGlobal i (e.admission id)).limiter =
      g.limiter.check ((Counter.global e).key id) (Counter.global e).rate := by
  rw [← globalRate_admission e id]
  rfl

theorem countEndpoint_limiter (i : Nat) (e : Endpoint) (allowed : Bool) :
    (g.countEndpoint i (e.admission id) allowed).limiter =
      g.limiter.check ((Counter.endpoint e).key id) (Counter.endpoint e).rate := by
  rw [← endpointRate_admission e id]
  rfl

/-- What passes is what the endpoint's counter allows of what the global one did. -/
theorem countEndpoint_passages (i : Nat) (e f : Endpoint) (allowed : Bool) :
    (g.countEndpoint i (e.admission id) allowed).passages f.path =
      if f = e then
        ⟨g.limiter.now, allowed &&
          g.limiter.decision ((Counter.endpoint e).key id) (Counter.endpoint e).rate⟩ ::
            g.passages f.path
      else g.passages f.path := by
  cases e <;> cases f <;> rfl

theorem Counter.window_eq (e : Endpoint) (id : String) :
    (Counter.global e).rate.window = seconds (e.admission id).policy.windowSecs ∧
      (Counter.endpoint e).rate.window = seconds (e.admission id).policy.windowSecs := by
  cases e <;> exact ⟨rfl, rfl⟩

/-- A call on one counter of the account keeps all of them. -/
theorem kept_check {w : World} (hkept : ∀ d : Counter, Kept w (d.key id) d.rate) (c : Counter)
    (hspared : Spared id w c.rate.window) (d : Counter) :
    Kept (w.check (c.key id) c.rate) (d.key id) d.rate := by
  by_cases hd : d.key id = c.key id
  · rw [Counter.key_injective hd]
    exact (hkept c).check_self
  · exact ((hkept d).check_other hd).2 (fun hfull b hb hlive => hspared hfull d b hb hlive)

/-- A call on a counter of the account is the newest of that counter, and of no other. -/
theorem calls_check {w : World} (c d : Counter) :
    (w.check (c.key id) c.rate).calls (d.key id) =
      if d = c then ⟨w.now, w.decision (c.key id) c.rate⟩ :: w.calls (d.key id)
      else w.calls (d.key id) := by
  rw [check_calls]
  by_cases hd : d = c
  · rw [if_pos hd, if_pos (by rw [hd])]
    rfl
  · rw [if_neg hd, if_neg (fun h => hd (Counter.key_injective h))]

/-- The answer of the limiter is that of the counter's own calls. -/
theorem Kept.decision {w : World} {key : String} {rate : RateLimit} (h : Kept w key rate) :
    w.decision key rate = decide ((Window.current rate.window w.now
      (windowOf rate.window (w.calls key))).count < rate.limit) := by
  unfold World.decision
  rw [check_allowed, h.windowAt]

theorem owned_start (id : String) : Owned id Gate.start where
  requests := fun _ hp => nomatch hp
  kept := fun c => .start (c.key id) c.rate
  passages := fun _ => .nil

theorem Owned.step {a : Event} (h : Owned id g) (ha : OneAccount env id g a)
    (hstep : execGate env source g a = some g') : Owned id g' := by
  cases a with
  | tick now =>
    simp only [execGate] at hstep
    split at hstep
    case isFalse => cases hstep
    case isTrue hle =>
      cases hstep
      exact ⟨h.requests, fun c => (h.kept c).tick hle, h.passages⟩
  | arrive r =>
    simp only [execGate] at hstep
    split at hstep
    case isFalse => cases hstep
    case isTrue hr =>
      obtain ⟨e, -, hread⟩ := admissionOf_anonymous hr
      rw [hread] at hstep
      cases hstep
      refine ⟨fun p hp => ?_, h.kept, h.passages⟩
      rcases mem_append.1 hp with hp | hp
      · exact h.requests p hp
      · rw [mem_singleton.1 hp]
        exact ⟨e, by rw [show identityOf env r = id from ha]⟩
  | global i =>
    simp only [execGate] at hstep
    split at hstep
    case h_2 => cases hstep
    case h_1 x hi =>
      cases hstep
      obtain ⟨e, rfl⟩ := h.requests _ (mem_of_getElem? hi)
      have hspared := ha _ hi
      rw [← (Counter.window_eq e id).1] at hspared
      refine ⟨fun p hp => ?_, ?_, ?_⟩
      · rcases mem_or_eq_of_mem_set hp with hp | rfl
        · exact h.requests p hp
        · exact ⟨e, rfl⟩
      · rw [countGlobal_limiter]
        exact kept_check h.kept (.global e) hspared
      · intro f
        rw [countGlobal_limiter, calls_check, if_neg (by simp)]
        exact h.passages f
  | endpoint i =>
    simp only [execGate] at hstep
    split at hstep
    case h_2 => cases hstep
    case h_1 x allowed hi =>
      cases hstep
      obtain ⟨e, rfl⟩ := h.requests _ (mem_of_getElem? hi)
      have hspared := ha _ hi
      rw [← (Counter.window_eq e id).2] at hspared
      refine ⟨fun p hp => ?_, ?_, ?_⟩
      · rcases mem_or_eq_of_mem_set hp with hp | rfl
        · exact h.requests p hp
        · exact ⟨e, rfl⟩
      · rw [countEndpoint_limiter]
        exact kept_check h.kept (.endpoint e) hspared
      · intro f
        rw [countEndpoint_limiter, countEndpoint_passages, calls_check]
        by_cases hf : f = e
        · subst hf
          rw [if_pos rfl, if_pos rfl]
          refine .cons ⟨rfl, fun hpasses => ?_⟩ (h.passages f)
          rw [Bool.and_eq_true] at hpasses
          exact hpasses.2
        · rw [if_neg hf, if_neg (by simpa using hf)]
          exact h.passages f
  | other key rate =>
    cases hstep
    refine ⟨h.requests, fun c => ?_, fun e => ?_⟩
    · exact ((h.kept c).check_other (Ne.symm (ha.1 c))).2
        (fun hfull b hb hlive => ha.2 hfull c b hb hlive)
    · show Forall₂ _ _ ((g.limiter.check key rate).calls _)
      rw [check_calls, if_neg (Ne.symm (ha.1 _))]
      exact h.passages e

theorem owned_invariant (env : Env) (source id : String) :
    ((clientSystem env source).restrict (OneAccount env id)).Invariant (Owned id) :=
  Inductive.invariant
    { init := fun _ h => h ▸ owned_start id
      step := fun _ _ _ h hstep => h.step hstep.1 hstep.2 }

/-- The policy of an endpoint is the same for every method. -/
theorem policyFor_endpoint (e : Endpoint) (method : Method) :
    policyFor e.path method none = some (e.admission "").policy := by
  cases e <;> rfl

theorem Owned.bounded (h : Owned id g) : Bounded g := by
  intro path method policy hpath hpolicy v hv
  obtain ⟨e, rfl⟩ : ∃ e : Endpoint, path = e.path := by
    rcases hpath with hpath | hpath
    · exact ⟨.login, hpath⟩
    · exact ⟨.bootstrap, hpath⟩
  rw [policyFor_endpoint] at hpolicy
  cases hpolicy
  obtain ⟨u, hu, -, hle⟩ := windowOf_within (h.passages e) v hv
  exact hle.trans ((h.kept (.endpoint e)).bounded u hu)

/-! ## Two runs -/

/-- The client is treated alike on its two accounts. -/
structure Alike (id id' : String) (g g' : Gate) : Prop where
  now : g.limiter.now = g'.limiter.now
  requests : Forall₂ (fun p p' => ∃ e : Endpoint,
    p.1 = e.admission id ∧ p'.1 = e.admission id' ∧ p.2 = p'.2) g.requests g'.requests
  calls : ∀ c : Counter, g.limiter.calls (c.key id) = g'.limiter.calls (c.key id')

section

variable (halike : Alike id id' g g') (h : Owned id g) (h' : Owned id' g')
include halike h h'

/-- Equal calls are answered alike. -/
theorem Alike.decision (c : Counter) :
    g.limiter.decision (c.key id) c.rate = g'.limiter.decision (c.key id') c.rate := by
  rw [(h.kept c).decision, (h'.kept c).decision, halike.now, halike.calls]

theorem Alike.calls_check (c d : Counter) :
    (g.limiter.check (c.key id) c.rate).calls (d.key id) =
      (g'.limiter.check (c.key id') c.rate).calls (d.key id') := by
  rw [RateLimiter.calls_check, RateLimiter.calls_check, halike.decision h h', halike.now,
    halike.calls]

theorem Alike.step {a a' : Event} (hsame : SameButHeaders a a') (ha : OneAccount env id g a)
    (ha' : OneAccount env id' g' a') (hstep : execGate env source g a = some k)
    (hstep' : execGate env source g' a' = some k') : Alike id id' k k' := by
  cases a with
  | tick now =>
    cases hsame
    simp only [execGate] at hstep hstep'
    split at hstep <;> split at hstep' <;> cases hstep <;> cases hstep'
    exact ⟨rfl, halike.requests, halike.calls⟩
  | arrive r =>
    cases a' with
    | arrive r' =>
      simp only [execGate] at hstep hstep'
      split at hstep
      case isFalse => cases hstep
      case isTrue hr =>
        split at hstep'
        case isFalse => cases hstep'
        case isTrue hr' =>
          obtain ⟨e, hpath, hread⟩ := admissionOf_anonymous hr
          obtain ⟨f, hpath', hread'⟩ := admissionOf_anonymous hr'
          rw [hread] at hstep
          rw [hread'] at hstep'
          cases hstep
          cases hstep'
          have hef : e = f := by
            have := hsame.1
            rw [hpath, hpath'] at this
            cases e <;> cases f <;> first | rfl | exact absurd this (by decide)
          subst hef
          refine ⟨halike.now, rel_append halike.requests (.cons ⟨e, ?_, ?_, rfl⟩ .nil),
            halike.calls⟩
          · rw [show identityOf env r = id from ha]
          · rw [show identityOf env r' = id' from ha']
    | tick | global | endpoint | other => exact absurd hsame (by simp [SameButHeaders])
  | global i =>
    cases hsame
    simp only [execGate] at hstep hstep'
    split at hstep
    case h_2 => cases hstep
    case h_1 x hi =>
      split at hstep'
      case h_2 => cases hstep'
      case h_1 x' hi' =>
        cases hstep
        cases hstep'
        obtain ⟨e, rfl, rfl, -⟩ := forall₂_getElem? i halike.requests hi hi'
        refine ⟨halike.now, forall₂_set i halike.requests ⟨e, rfl, rfl, ?_⟩, fun d => ?_⟩
        · rw [globalRate_admission, globalRate_admission]
          exact congrArg Stage.counted (halike.decision h h' (.global e))
        · rw [countGlobal_limiter, countGlobal_limiter]
          exact halike.calls_check h h' (.global e) d
  | endpoint i =>
    cases hsame
    simp only [execGate] at hstep hstep'
    split at hstep
    case h_2 => cases hstep
    case h_1 x allowed hi =>
      split at hstep'
      case h_2 => cases hstep'
      case h_1 x' allowed' hi' =>
        cases hstep
        cases hstep'
        obtain ⟨e, rfl, rfl, hallowed⟩ := forall₂_getElem? i halike.requests hi hi'
        cases hallowed
        refine ⟨halike.now, forall₂_set i halike.requests ⟨e, rfl, rfl, ?_⟩, fun d => ?_⟩
        · rw [endpointRate_admission, endpointRate_admission]
          have hdecision := halike.decision h h' (.endpoint e)
          show (if (allowed && g.limiter.decision ((Counter.endpoint e).key id) _) then _ else _) =
            (if (allowed && g'.limiter.decision ((Counter.endpoint e).key id') _) then _ else _)
          rw [hdecision]
        · rw [countEndpoint_limiter, countEndpoint_limiter]
          exact halike.calls_check h h' (.endpoint e) d
  | other key rate =>
    cases hsame
    cases hstep
    cases hstep'
    refine ⟨halike.now, halike.requests, fun c => ?_⟩
    show (g.limiter.check key rate).calls _ = (g'.limiter.check key rate).calls _
    rw [check_calls, check_calls, if_neg (Ne.symm (ha.1 c)), if_neg (Ne.symm (ha'.1 c))]
    exact halike.calls c

theorem alike_of_runs {ls ls' : List Event} (hsame : Forall₂ SameButHeaders ls ls')
    (hrun : ((clientSystem env source).restrict (OneAccount env id)).Run g ls k)
    (hrun' : ((clientSystem env source).restrict (OneAccount env id')).Run g' ls' k') :
    Alike id id' k k' := by
  induction hsame generalizing g g' with
  | nil =>
    cases hrun
    cases hrun'
    exact halike
  | cons hevent _ ih =>
    cases hrun with
    | cons hstep hrest =>
      cases hrun' with
      | cons hstep' hrest' =>
        exact ih (halike.step h h' hevent hstep.1 hstep'.1 hstep.2 hstep'.2)
          (h.step hstep.1 hstep.2) (h'.step hstep'.1 hstep'.2) hrest hrest'

end

/-- Where the client has one account, its attempts are bounded, and what its headers say does not
change which of them are let through. -/
theorem attempts_bounded {ls ls' : List Event} (hsame : Forall₂ SameButHeaders ls ls')
    (hrun : ((clientSystem env source).restrict (OneAccount env id)).Run Gate.start ls g)
    (hrun' : ((clientSystem env source).restrict (OneAccount env id')).Run Gate.start ls' g') :
    Bounded g ∧ answers g = answers g' := by
  have hstart : Alike id id' Gate.start Gate.start := ⟨rfl, .nil, fun _ => rfl⟩
  have halike := alike_of_runs hstart (owned_start id) (owned_start id') hsame hrun hrun'
  refine ⟨(owned_invariant env source id g ⟨_, ls, rfl, hrun⟩).bounded, ?_⟩
  have heq : Forall₂ (· = ·) (answers g) (answers g') := by
    unfold answers
    rw [forall₂_map_left_iff, forall₂_map_right_iff]
    exact halike.requests.imp (fun _ _ ⟨_, _, _, hstage⟩ => hstage)
  rwa [forall₂_eq_eq_eq] at heq

/-! ## Made-up tokens -/

/-- `digest`, of the texts below. -/
def sampleDigest (text : String) : String :=
  ([ ("192.0.2.7", "37dad677cf0b3997d0f5dd0d7889f84b11002e3ca73b0ae1bdb6d7e9b46fdb8a")
    , ("a", "ca978112ca1bbdcafac231b39a23dc4da786eff8147c4e72b9807785afee48bb")
    , ("b", "3e23e8160039594a33894f6564e1b1348bbd7a0088d42c4acb73eeaed59c009d")
    , ("c", "2e7d2c03a9507ae265ecf5b5356885a53393a2029d241394997265a1a25aefc6")
    , ("d", "18ac3e7343f016890c510e93f935261169d9e3f565436429830faf0934f4f8e4")
    , ("e", "3f79bb7b435b05321651daefd374cdc681dc06faa65e374e38337b88ca046dea")
    , ("f", "252f10c83610ebca1a059c0bae8255eba2f95be4d1d7bcfa89d7248a82d9f111") ].lookup text).getD ""

/-- Nobody has a credential. -/
def noCredentials : Env := ⟨sampleDigest, fun _ => none, none, none, none, none⟩

def headerOf (text : String) : HeaderValue := text.toList.map (fun c => c.toNat.toUInt8)

/-- An attempt to log in with those headers. -/
def attempt (headers : List (String × String)) : Request :=
  ⟨"/admin/auth/login", .post, some "192.0.2.7",
    headers.map (fun (name, text) => (name, headerOf text))⟩

/-- What the middleware does with the request `i`. -/
def served (i : Nat) (headers : List (String × String)) : List Event :=
  [.arrive (attempt headers), .global i, .endpoint i]

/-- Seven attempts with those headers, the last of them after the window, and a call of the limiter
for somebody else. -/
def guesses (headers : List (String × String)) : List Event :=
  ((List.range 4).map (served · headers)).flatten ++ [.tick (seconds 20), .other "x" ⟨1, 60⟩] ++
    served 4 headers ++ served 5 headers ++ [.tick (seconds 60)] ++ served 6 headers

def allCounters : List Counter :=
  [.global .login, .global .bootstrap, .endpoint .login, .endpoint .bootstrap]

theorem forall_counter_iff {P : Counter → Prop} : (∀ c ∈ allCounters, P c) ↔ ∀ c, P c := by
  refine ⟨fun h c => h c ?_, fun h c _ => h c⟩
  rcases c with e | e <;> cases e <;> decide

instance (id : String) (w : World) (window : Nat) : Decidable (Spared id w window) :=
  decidable_of_iff (10000 < w.buckets.rows.length → ∀ c ∈ allCounters,
      ∀ b ∈ w.buckets.get? (c.key id),
        w.now - b.started < c.rate.window → w.now - b.started < window)
    (imp_congr_right fun _ => forall_counter_iff)

instance (env : Env) (id : String) (g : Gate) : DecidablePred (OneAccount env id g)
  | .tick _ => .isTrue trivial
  | .arrive r => inferInstanceAs (Decidable (identityOf env r = id))
  | .global _ | .endpoint _ => inferInstanceAs (Decidable (∀ p ∈ g.requests[_]?, Spared _ _ _))
  | .other key rate =>
    decidable_of_iff ((∀ c ∈ allCounters, key ≠ c.key id) ∧ Spared id g.limiter rate.window)
      (and_congr_left' forall_counter_iff)

theorem guesses_answered (headers : List (String × String)) (id : String)
    (h : (execAll (fun g a => if OneAccount noCredentials id g a then
      execGate noCredentials "192.0.2.7" g a else none) Gate.start (guesses headers)).map answers =
        some [.passed, .passed, .passed, .passed, .passed, .refused, .passed]) :
    ∃ g, ((clientSystem noCredentials "192.0.2.7").restrict (OneAccount noCredentials id)).Run
      Gate.start (guesses headers) g ∧
      answers g = [.passed, .passed, .passed, .passed, .passed, .refused, .passed] := by
  obtain ⟨g, hg, hanswers⟩ := Option.map_eq_some_iff.1 h
  exact ⟨g, run_restrict_of_execAll (· = Gate.start) _ hg, hanswers⟩

/-- Without headers and with a token, the sixth attempt is refused. -/
theorem attempts_bounded_guesses : ∃ g g', Bounded g ∧ answers g = answers g' ∧
    answers g' = [.passed, .passed, .passed, .passed, .passed, .refused, .passed] := by
  have hsame : Forall₂ SameButHeaders (guesses [])
      (guesses [("authorization", "Bearer a")]) := by
    unfold guesses served
    repeat' constructor
  obtain ⟨g, hrun, -⟩ := guesses_answered [] (sampleDigest "192.0.2.7") (by decide +kernel)
  obtain ⟨g', hrun', hanswers⟩ :=
    guesses_answered [("authorization", "Bearer a")] (sampleDigest "a") (by decide +kernel)
  obtain ⟨hbounded, hsame⟩ := attempts_bounded hsame hrun hrun'
  exact ⟨g, g', hbounded, hsame, hanswers⟩

/-- Six attempts at once, each with a token of its own. -/
def madeUpTokens : List Event :=
  served 0 [("authorization", "Bearer a")] ++ served 1 [("authorization", "Bearer b")] ++
    served 2 [("authorization", "Bearer c")] ++ served 3 [("authorization", "Bearer d")] ++
    served 4 [("authorization", "Bearer e")] ++ served 5 [("authorization", "Bearer f")]

/-- The limit is five. -/
theorem made_up_tokens_pass :
    ¬ ∀ env source, (clientSystem env source).Invariant Bounded := by
  intro h
  have hrun : (execAll (execGate noCredentials "192.0.2.7") Gate.start madeUpTokens).map
      (fun g => windowOf (seconds 60) (g.passages "/admin/auth/login")) = some (some ⟨0, 6⟩) := by
    decide +kernel
  obtain ⟨g, hg, hwindow⟩ := Option.map_eq_some_iff.1 hrun
  have hreach : (clientSystem noCredentials "192.0.2.7").Reachable g :=
    ⟨Gate.start, madeUpTokens, rfl, run_of_execAll _ _ hg⟩
  have hle := h _ _ g hreach "/admin/auth/login" .post ⟨"login", 5, 60⟩ (Or.inl rfl) rfl
    ⟨0, 6⟩ hwindow
  exact absurd hle (by decide)

end Clawforge.RateLimiter
