import Clawforge.Worker.IpContext
import Clawforge.Theorems.RoutingFacts
import Clawforge.Theorems.ReputationCasts
import Clawforge.Kit.TSys

/-!
# A routing answer and the cycle

Which accepted answers are stored or recorded as a failure with backoff, and leave the cycle
to go on: those that announce a network without host bits, for a source whose resolution is
alive at one of the two statements (`cycleSound_iff`). With host bits the cast to `cidr`
raises, and the cycle ends with the error.
-/

namespace Clawforge.NetworkContext

open Clawforge.Net Clawforge.Reputation Clawforge.Intelligence Kit Table Option

section Statement

variable (env : Env) (pg : Postgres) (config : IpContextConfig)

/-- The body announces this network. -/
def Announces (info : ByteArray) (net : IpNet) : Prop :=
  ∃ value data text, env.fromSlice info = .ok value ∧ value.get "data" = some data ∧
    data.get "prefix" = some (.string text) ∧ text ≠ "" ∧ env.parseIpNet text = some net

/-- The source's turn begins with a lookup of this address. -/
def LooksUp (target : NetworkContextTarget) (ip : IpAddr) : Prop :=
  parseIpAddr target.rawIp.toList = some ip ∧ isQueryable ip = true

/-- The lookup has an answer that `parse_network_info` accepts. -/
def Accepted (turn : Turn) (ip : IpAddr) (info : ByteArray) : Prop :=
  turn.answer (.networkInfo ip) = .ok info ∧ ∃ route, parseNetworkInfo env info ip = .ok route

/-- The API asks to wait during the lookup. -/
def AsksToWait (turn : Turn) (ip : IpAddr) : Prop :=
  ∃ s, (lookup env turn.answer turn.fetchedAt ip).2 = .error (.rateLimited s)

/-- The source resolves, at the first statement, to an address inside what is announced. -/
def Matches (turn : Turn) (pseudonym : String) (info : ByteArray) : Prop :=
  ∃ res, turn.first.resolution pseudonym = some res ∧
    ∀ net, Announces env info net → net.contains res.rawIp.addr = true

/-- The condition on an accepted answer and the resolutions at the two statements. -/
structure Recordable (turn : Turn) (pseudonym : String) (ip : IpAddr) (info : ByteArray) :
    Prop where
  waiting : AsksToWait env turn ip → (turn.first.resolution pseudonym).isSome = true
  answered : ¬ AsksToWait env turn ip →
    (∀ net, Announces env info net → net.isNetwork = true) ∧
      (Matches env turn pseudonym info ∨ (turn.second.resolution pseudonym).isSome = true)

/-- The loop comes to the target: no target before it is asked to wait. -/
inductive Reached (turns : String → Turn) :
    List NetworkContextTarget → NetworkContextTarget → Prop
  | head (target rest) : Reached turns (target :: rest) target
  | tail {other rest target} :
      (∀ ip, LooksUp other ip → ¬ AsksToWait env (turns other.pseudonym) ip) →
        Reached turns rest target → Reached turns (other :: rest) target

/-- The context of the lookup is stored, and current. -/
def StoredFor (turn : Turn) (pseudonym : String) (ip : IpAddr) (T : Contexts) : Prop :=
  ∃ context row, (lookup env turn.answer turn.fetchedAt ip).2 = .ok context ∧
    T.get? pseudonym = some row ∧ turn.first.now < row.expiresAt ∧
    row.status = (if context.announced.isSome then .ok else .unrouted) ∧
    row.announced = context.announced ∧ row.originAsns = context.originAsns ∧
    row.rpki = context.rpki.asStr

/-- The worker, cycle after cycle. -/
def worker : TSys WorkerState Cycle where
  init _ := True
  step w c w' := w' = (runCycle env pg config c w).2.1

/-- No cycle that lists before `t` has the source among its targets. -/
def NotListedBefore (w : WorkerState) (pseudonym : String) (t : Instant) : Prop :=
  ∀ (cycles : List Cycle) (w' : WorkerState) (c : Cycle),
    (worker env pg config).Run w cycles w' →
    (∀ c' ∈ cycles, c'.listing.now < t) → c.listing.now < t →
      ∀ target ∈ c.targets pg config w'.contexts, target.pseudonym ≠ pseudonym

/-- A failure is recorded, and the source waits for its next attempt. -/
def BackedOff (turn : Turn) (pseudonym : String) (w : WorkerState) : Prop :=
  ∃ row, w.contexts.get? pseudonym = some row ∧
    turn.first.now + seconds 30 ≤ row.nextAttemptAt ∧
    NotListedBefore env pg config w pseudonym row.nextAttemptAt

/-- A cycle goes through its targets unless it is asked to wait, and settles every accepted
answer. -/
structure CycleSound (c : Cycle) (w : WorkerState) : Prop where
  completes : ∃ report, (runCycle env pg config c w).2.2 = .ok report ∧
    (report.paused = true ∨ report.rateLimited = true ∨
      report.routed + report.unrouted + report.skippedNonPublic + report.failed +
        report.refusedByDatabase = report.targets)
  settles : c.waits w = false →
    ∀ target, Reached env c.turns (c.targets pg config w.contexts) target →
      ∀ ip info, LooksUp target ip → Accepted env (c.turns target.pseudonym) ip info →
        StoredFor env (c.turns target.pseudonym) target.pseudonym ip
            (runCycle env pg config c w).2.1.contexts ∨
          BackedOff env pg config (c.turns target.pseudonym) target.pseudonym
            (runCycle env pg config c w).2.1

end Statement

section Lookup

variable {env : Env} {info : ByteArray}

theorem announces_unique {net net' : IpNet} (h : Announces env info net)
    (h' : Announces env info net') : net = net' := by
  obtain ⟨value, data, text, hvalue, hdata, htext, -, hnet⟩ := h
  obtain ⟨value', data', text', hvalue', hdata', htext', -, hnet'⟩ := h'
  obtain rfl := Except.ok.inj (hvalue.symm.trans hvalue')
  obtain rfl := some.inj (hdata.symm.trans hdata')
  obtain rfl := Json.string.inj (some.inj (htext.symm.trans htext'))
  exact some.inj (hnet.symm.trans hnet')

/-- The network that an accepted body announces. -/
theorem parseNetworkInfo_announces {ip : IpAddr} {route : Option (IpNet × List Nat)}
    (h : parseNetworkInfo env info ip = .ok route) (net : IpNet) :
    Announces env info net ↔ route.map Prod.fst = some net := by
  have huniq : ∀ net', Announces env info net' →
      (Announces env info net ↔ some net' = some net) :=
    fun net' h' => ⟨fun hnet => congrArg some (announces_unique h' hnet),
      fun heq => some.inj heq ▸ h'⟩
  unfold parseNetworkInfo at h
  obtain ⟨value, hvalue, h⟩ := bind_ok h
  obtain ⟨data, hdata, h⟩ := bind_ok h
  obtain ⟨text, htext, h⟩ := bind_ok h
  obtain ⟨asns, -, h⟩ := bind_ok h
  have hslice := (envelope_ok.1 hvalue).2.2.1
  have hget := (filter_eq_some_iff.1 (orReject_ok.1 hdata)).1
  have hstring := bind_asStr_eq_some.1 (orReject_ok.1 htext)
  split at h
  · rename_i hempty
    split at h
    · obtain rfl := Except.ok.inj h
      refine ⟨?_, fun hnone => nomatch hnone⟩
      rintro ⟨value', data', text', hslice', hget', hstring', hne, -⟩
      obtain rfl := Except.ok.inj (hslice.symm.trans hslice')
      obtain rfl := some.inj (hget.symm.trans hget')
      obtain rfl := Json.string.inj (some.inj (hstring.symm.trans hstring'))
      exact absurd hempty hne
    · cases h
  · rename_i hne
    obtain ⟨net', hnet, h⟩ := bind_ok h
    have hannounced : Announces env info net' :=
      ⟨value, data, text, hslice, hget, hstring, hne, orReject_ok.1 hnet⟩
    split at h
    · cases h
    · split at h
      · cases h
      · split at h
        · cases h
        · obtain ⟨numbers, -, h⟩ := bind_ok h
          obtain rfl := Except.ok.inj h
          exact huniq net' hannounced

/-- An accepted body is assembled whatever the validity answers are. -/
theorem assemble_accepted {ip : IpAddr} {route : Option (IpNet × List Nat)}
    (h : parseNetworkInfo env info ip = .ok route) (bodies : List (Option ByteArray)) (t : Instant) :
    ∃ context, assemble env info ip bodies t = .ok context := by
  unfold assemble
  rw [h]
  cases route with
  | none | some => exact ⟨_, rfl⟩

theorem askOrigins_error {answer : RoutingRequest → Except IpContextError ByteArray}
    {net : IpNet} {origins : List Nat} {error : IpContextError}
    (h : (askOrigins answer net origins).2 = .error error) : ∃ s, error = .rateLimited s := by
  induction origins with
  | nil => cases h
  | cons asn rest ih =>
    rw [askOrigins] at h
    split at h
    · exact ⟨_, (Except.error.inj h).symm⟩
    · cases hrest : (askOrigins answer net rest).2 with
      | error e =>
        rw [hrest] at h
        exact ih (hrest.trans h)
      | ok bodies =>
        rw [hrest] at h
        cases h

/-- The context of a lookup: its answer, and what was verified of it. -/
theorem lookup_ok {turn : Turn} {ip : IpAddr} {context : IpNetworkContext}
    (h : (lookup env turn.answer turn.fetchedAt ip).2 = .ok context) :
    ∃ info, Accepted env turn ip info ∧
      (∀ net, Announces env info net ↔ context.announced = some net) ∧
      ((context.announced = none ∧ context.originAsns = [] ∧ context.rpki = .notChecked) ∨
        ∃ net, context.announced = some net ∧ VerifiedRoute ip net context.originAsns) := by
  have hassemble : ∃ info bodies, turn.answer (.networkInfo ip) = .ok info ∧
      assemble env info ip bodies turn.fetchedAt = .ok context := by
    unfold lookup at h
    split at h
    · split at h
      · cases h
      · rename_i info hinfo
        split at h
        · cases h
        · exact ⟨info, [], hinfo, h⟩
        · obtain ⟨bodies, -, h⟩ := bind_ok h
          exact ⟨info, bodies, hinfo, h⟩
    · cases h
  obtain ⟨info, bodies, hinfo, hassemble⟩ := hassemble
  rcases assemble_ok hassemble with ⟨hparse, hnone, hempty, hrpki⟩ | ⟨net, hparse, hnet, -⟩
  · exact ⟨info, ⟨hinfo, _, hparse⟩,
      fun net => by rw [parseNetworkInfo_announces hparse, hnone]; rfl,
      .inl ⟨hnone, hempty, hrpki⟩⟩
  · exact ⟨info, ⟨hinfo, _, hparse⟩,
      fun net' => by rw [parseNetworkInfo_announces hparse, hnet]; rfl,
      .inr ⟨net, hnet, parseNetworkInfo_ok hparse⟩⟩

/-- A lookup with an accepted answer has a context, or is asked to wait. -/
theorem lookup_accepted {turn : Turn} {ip : IpAddr} (hquery : isQueryable ip = true)
    (h : Accepted env turn ip info) (hwait : ¬ AsksToWait env turn ip) :
    ∃ context, (lookup env turn.answer turn.fetchedAt ip).2 = .ok context := by
  obtain ⟨hinfo, route, hroute⟩ := h
  have hassemble := fun bodies => assemble_accepted hroute bodies turn.fetchedAt
  unfold AsksToWait at hwait
  unfold lookup at hwait ⊢
  rw [if_pos hquery, hinfo] at hwait ⊢
  simp only [hroute] at hwait ⊢
  cases route with
  | none => exact hassemble []
  | some route =>
    simp only at hwait ⊢
    cases hasked : (askOrigins turn.answer route.1 route.2).2 with
    | ok bodies => exact hassemble bodies
    | error error =>
      obtain ⟨s, rfl⟩ := askOrigins_error hasked
      exact absurd ⟨s, by rw [hasked]; rfl⟩ hwait

end Lookup

section Record

variable {m : Moment} {T : Contexts} {p k : String}

/-! ## Recorded rows -/

/-- A recorded result is the row of its source. -/
theorem get?_recordResult (m : Moment) (T : Contexts) (p : String) (res : Resolution)
    (status : ContextStatus) (announced : Option IpNet) (originAsns : List Nat) (rpki : String)
    (ttl : Nat) :
    ∃ row, (recordResult m T p res status announced originAsns rpki ttl).get? p = some row ∧
      row.expiresAt = min (m.now + seconds ttl) res.expiresAt ∧ row.status = status ∧
      row.announced = announced ∧ row.originAsns = originAsns ∧ row.rpki = rpki := by
  unfold recordResult
  rw [get?_upsert, if_pos rfl]
  cases T.get? p with
  | none | some => exact ⟨_, rfl, rfl, rfl, rfl, rfl, rfl⟩

theorem le_backoff (retryAfterSeconds attempts : Nat) :
    30 ≤ backoff retryAfterSeconds attempts := by
  have hpow : 1 ≤ 2 ^ min attempts 7 := Nat.one_le_two_pow
  unfold backoff
  omega

/-- After a recorded failure the source waits half a minute at least. -/
theorem get?_recordFailure (m : Moment) (T : Contexts) (p : String) (retryAfterSeconds : Nat)
    (error : String) :
    ∃ row, (recordFailure m T p retryAfterSeconds error).get? p = some row ∧
      m.now + seconds 30 ≤ row.nextAttemptAt := by
  have hdelay := le_backoff retryAfterSeconds (((T.get? p).map ContextRow.attempts).getD 0)
  unfold recordFailure
  rw [get?_upsert, if_pos rfl]
  cases hrow : T.get? p with
  | none | some =>
    rw [hrow] at hdelay
    exact ⟨_, rfl, Nat.add_le_add_left (Nat.mul_le_mul_right _ hdelay) _⟩

theorem recordNoRoute_frame (hk : k ≠ p) (status : ContextStatus) (ttl : Nat) :
    (recordNoRoute m T p status ttl).2.get? k = T.get? k := by
  unfold recordNoRoute
  split
  · rfl
  · split
    · rfl
    · exact get?_upsert k |>.trans (if_neg hk)

theorem recordRoute_frame (hk : k ≠ p) (announced : IpNet) (originAsns : List Nat)
    (rpki : String) (ttl : Nat) :
    (recordRoute m T p announced originAsns rpki ttl).2.get? k = T.get? k := by
  unfold recordRoute
  split
  · rfl
  · split
    · rfl
    · split
      · exact get?_upsert k |>.trans (if_neg hk)
      · rfl

/-- Recording a source leaves the rows of the others alone. -/
theorem recordNetworkContext_frame {pg : Postgres} {outcome : NetworkContextOutcome}
    {b : Bool} {T' : Contexts} (hk : k ≠ p)
    (h : recordNetworkContext m T p pg outcome = .ok (b, T')) : T'.get? k = T.get? k := by
  unfold recordNetworkContext at h
  split at h
  · split at h
    · cases h
    · obtain rfl : (recordRoute m T p _ _ _ _).2 = T' := (Prod.mk.inj (Except.ok.inj h)).2
      exact recordRoute_frame hk _ _ _ _
  · obtain rfl := (Prod.mk.inj (Except.ok.inj h)).2
    exact recordNoRoute_frame hk _ _
  · obtain rfl := (Prod.mk.inj (Except.ok.inj h)).2
    exact recordNoRoute_frame hk _ _
  · split at h
    · cases h
    · split at h
      · obtain rfl := (Prod.mk.inj (Except.ok.inj h)).2
        rfl
      · obtain rfl := (Prod.mk.inj (Except.ok.inj h)).2
        exact get?_upsert k |>.trans (if_neg hk)

end Record

/-! ## Error codes -/

theorem utf8ByteSize_ofList_le (cs : List Char) :
    (String.ofList cs).utf8ByteSize ≤ 4 * cs.length := by
  induction cs with
  | nil => exact Nat.le_refl 0
  | cons c cs ih =>
    have hsize := Char.utf8Size_le_four c
    rw [String.ofList_cons, String.utf8ByteSize_append, String.utf8ByteSize_singleton,
      List.length_cons]
    omega

theorem errorCode_upstream (status : UInt16) : errorCode (.upstream status) =
    "upstream_" ++ String.ofList (Nat.toDigits 10 status.toNat) :=
  congrArg ("upstream_" ++ ·) Nat.repr_eq_ofList_toDigits

/-- Every code the worker records is short lowercase text. -/
theorem validErrorCode_errorCode (error : IpContextError) :
    validErrorCode (errorCode error) = true := by
  cases error with
  | rateLimited s => exact (by decide : validErrorCode "rate_limited" = true)
  | transport => exact (by decide : validErrorCode "transport" = true)
  | rejected text => exact (by decide : validErrorCode "rejected_response" = true)
  | upstream status =>
    have hlength : (Nat.toDigits 10 status.toNat).length ≤ 5 :=
      (Nat.length_toDigits_le_iff (by decide) (by decide)).2
        (Nat.lt_trans status.toNat_lt (by decide))
    have hbytes := utf8ByteSize_ofList_le (Nat.toDigits 10 status.toNat)
    have hname : "upstream_".utf8ByteSize = 9 := by decide
    rw [errorCode_upstream]
    unfold validErrorCode
    simp only [Bool.and_eq_true, decide_eq_true_eq, List.all_eq_true]
    refine ⟨⟨?_, ?_⟩, ?_⟩
    · intro hempty
      have hsize := congrArg String.utf8ByteSize hempty
      rw [String.utf8ByteSize_append, hname] at hsize
      exact absurd hsize (by rw [String.utf8ByteSize_empty]; omega)
    · rw [String.utf8ByteSize_append]
      omega
    · intro c hc
      rw [String.toList_append, List.mem_append] at hc
      rcases hc with hc | hc
      · have hname : "upstream_".toList.all (fun c => c.isLower || c.isDigit ||
            " _:-".toList.contains c) = true := by decide
        exact List.all_eq_true.1 hname c hc
      · rw [String.toList_ofList] at hc
        have hdigit : c.isDigit = true :=
          Nat.isDigit_of_mem_toDigits (by decide : 0 < 10) (by decide : 10 ≤ 10) hc
        rw [hdigit, Bool.or_true, Bool.true_or]

/-! ## One turn -/

section Turn

variable {env : Env} {pg : Postgres} {config : IpContextConfig} {turn : Turn} {p k : String}
  {T : Contexts}

theorem recordNetworkContext_failed {m : Moment} {error : String} (retryAfterSeconds : Nat)
    (h : validErrorCode error = true) :
    recordNetworkContext m T p pg (.failed retryAfterSeconds error) = .ok
      (if (m.resolution p).isNone then (false, T)
        else (true, recordFailure m T p retryAfterSeconds error)) := by
  show (if _ then _ else _) = _
  rw [if_neg (by rw [h]; exact Bool.noConfusion)]
  split <;> rfl

theorem validErrorCode_refused : validErrorCode "refused_by_database" = true := by decide

/-- What was verified of a context passes the database's checks. -/
theorem consistentRoute_of_verified {ip : IpAddr} {net : IpNet} {origins : List Nat}
    (h : VerifiedRoute ip net origins) {res : Resolution} (rpki : RpkiSummary) :
    consistentRoute res net origins rpki.asStr = net.contains res.rawIp.addr := by
  have hspecific : specific net = true := by
    have hmin := h.specific
    unfold minLength at hmin
    unfold specific
    split <;> simp_all
  have hcount : 1 ≤ origins.length := List.length_pos_iff.2 h.origin
  have hfew := h.few
  have hplain : origins.all (fun asn => 1 ≤ asn && asn ≤ 4294967295) = true := by
    rw [List.all_eq_true]
    intro asn hasn
    obtain ⟨hpos, hlt⟩ := h.plain asn hasn
    rw [Bool.and_eq_true, decide_eq_true_eq, decide_eq_true_eq]
    omega
  have hrpki : rpkiValues.contains rpki.asStr = true := by
    cases rpki <;> decide
  unfold consistentRoute
  rw [hspecific, hplain, hrpki, decide_eq_true hcount, decide_eq_true hfew]
  simp only [Bool.true_and, Bool.and_true]

/-- The status under which a context is stored. -/
abbrev statusOf (context : IpNetworkContext) : ContextStatus :=
  if context.announced.isSome then .ok else .unrouted

/-- The counter of a stored context. -/
abbrev countOf (context : IpNetworkContext) : Count :=
  if context.announced.isSome then .routed else .unrouted

/-- What a lookup verified of its context. -/
def Verified (ip : IpAddr) (context : IpNetworkContext) : Prop :=
  (context.announced = none ∧ context.originAsns = [] ∧ context.rpki = .notChecked) ∨
    ∃ net, context.announced = some net ∧ VerifiedRoute ip net context.originAsns

section Found

variable {ip : IpAddr} {context : IpNetworkContext}

theorem ttl_accepted (config : IpContextConfig) :
    ¬ (config.ttlSeconds < 60 ∨ 86400 < config.ttlSeconds) := by
  have hlow := config.ttl_range.1
  have hhigh := config.ttl_range.2
  omega

theorem recordFound_of_stored {T' : Contexts}
    (h : recordNetworkContext turn.first T p pg (outcomeFor context config.ttlSeconds) =
      .ok (true, T')) :
    recordFound pg config turn p context T = (T', .ok (countOf context)) := by
  unfold recordFound
  rw [h]
  rfl

theorem recordFound_of_refused
    (h : recordNetworkContext turn.first T p pg (outcomeFor context config.ttlSeconds) =
      .ok (false, T)) :
    recordFound pg config turn p context T =
      (if (turn.second.resolution p).isNone then T
        else recordFailure turn.second T p 0 "refused_by_database", .ok .refused) := by
  unfold recordFound
  rw [h]
  show afterRecord T (recordNetworkContext turn.second T p pg _) _ = _
  rw [recordNetworkContext_failed 0 validErrorCode_refused]
  split <;> rfl

variable (hspells : ∀ n, pg.inetIn (displayIpNet n) = some n)

include hspells

theorem cidr_displayIpNet (n : IpNet) :
    pg.cidr (displayIpNet n) = if n.isNetwork then some n else none := by
  rw [Postgres.cidr, hspells n, filter_some]

/-- Host bits end the turn with an error. -/
theorem recordFound_hostBits (config : IpContextConfig) (turn : Turn) (p : String)
    (T : Contexts) {net : IpNet} (hnet : context.announced = some net)
    (hbits : net.isNetwork = false) : ∃ error,
      recordFound pg config turn p context T = (T, .error error) := by
  refine ⟨.sql (.invalidCidr (displayIpNet net)), ?_⟩
  unfold recordFound outcomeFor recordNetworkContext
  rw [hnet]
  simp only
  rw [cidr_displayIpNet hspells, hbits]
  rfl

/-- Where the resolution matches, the context is stored. -/
theorem recordFound_stored (hverified : Verified ip context) {res : Resolution}
    (hplain : ∀ net, context.announced = some net → net.isNetwork = true)
    (hres : turn.first.resolution p = some res)
    (hmatches : ∀ net, context.announced = some net → net.contains res.rawIp.addr = true) :
    recordFound pg config turn p context T =
      (recordResult turn.first T p res (statusOf context) context.announced context.originAsns
        context.rpki.asStr config.ttlSeconds, .ok (countOf context)) := by
  apply recordFound_of_stored
  unfold outcomeFor recordNetworkContext statusOf
  rcases hverified with ⟨hnone, hempty, hrpki⟩ | ⟨net, hnet, hroute⟩
  · rw [hnone, hempty, hrpki]
    simp only [recordNoRoute, hres]
    rw [if_neg (ttl_accepted config)]
    rfl
  · rw [hnet]
    simp only
    rw [cidr_displayIpNet hspells, hplain net hnet, if_pos rfl]
    simp only [recordRoute, hres]
    rw [if_neg (ttl_accepted config), consistentRoute_of_verified hroute, hmatches net hnet, if_pos rfl]
    rfl

/-- Where it does not match, the failure is recorded if the source still resolves. -/
theorem recordFound_refused (hverified : Verified ip context)
    (hplain : ∀ net, context.announced = some net → net.isNetwork = true)
    (hmatches : ¬ ∃ res, turn.first.resolution p = some res ∧
      ∀ net, context.announced = some net → net.contains res.rawIp.addr = true) :
    recordFound pg config turn p context T =
      (if (turn.second.resolution p).isNone then T
        else recordFailure turn.second T p 0 "refused_by_database", .ok .refused) := by
  apply recordFound_of_refused
  unfold outcomeFor recordNetworkContext
  rcases hverified with ⟨hnone, -, -⟩ | ⟨net, hnet, hroute⟩
  · rw [hnone] at hmatches ⊢
    simp only [recordNoRoute]
    cases hres : turn.first.resolution p with
    | none => rfl
    | some res => exact absurd ⟨res, hres, fun _ hnet => nomatch hnet⟩ hmatches
  · rw [hnet] at hmatches ⊢
    simp only
    rw [cidr_displayIpNet hspells, hplain net hnet, if_pos rfl]
    simp only [recordRoute]
    cases hres : turn.first.resolution p with
    | none => rfl
    | some res =>
      have hoff : net.contains res.rawIp.addr = false := by
        by_contra hin
        exact hmatches ⟨res, hres, fun net' hnet' =>
          some.inj hnet' ▸ Bool.eq_true_of_not_eq_false hin⟩
      simp only
      rw [if_neg (ttl_accepted config), consistentRoute_of_verified hroute, hoff,
        if_neg Bool.noConfusion]

end Found

end Turn

/-! ## One target -/

section Target

variable {env : Env} {pg : Postgres} {config : IpContextConfig} {turn : Turn}
  {target : NetworkContextTarget} {T : Contexts} {k : String} {ip : IpAddr} {info : ByteArray}

/-- The counter of a lookup that failed. -/
abbrev countOfError : IpContextError → Count
  | .rateLimited s => .rateLimited s
  | _ => .failed

theorem recordError_eq (p : String) (error : IpContextError) :
    recordError pg turn p error T =
      (if (turn.first.resolution p).isNone then T
        else recordFailure turn.first T p (retrySeconds error) (errorCode error),
        .ok (countOfError error)) := by
  unfold recordError
  rw [recordNetworkContext_failed _ (validErrorCode_errorCode error)]
  split <;> rfl

/-- The turn of a target that is looked up. -/
theorem processTarget_looksUp (h : LooksUp target ip) :
    (processTarget env pg config turn target T).2 =
      match (lookup env turn.answer turn.fetchedAt ip).2 with
      | .ok context => recordFound pg config turn target.pseudonym context T
      | .error error => recordError pg turn target.pseudonym error T := by
  unfold processTarget
  simp only [h.1, if_pos h.2]
  rcases lookup env turn.answer turn.fetchedAt ip with ⟨requests, context | error⟩ <;> rfl

/-- … and of one that is not. -/
theorem processTarget_skips (h : ∀ ip, ¬ LooksUp target ip) :
    (processTarget env pg config turn target T).2.2 = .ok .skipped := by
  unfold processTarget
  cases hip : parseIpAddr target.rawIp.toList with
  | none => rfl
  | some ip =>
    have hquery : ¬ isQueryable ip = true := fun hq => h ip ⟨hip, hq⟩
    simp only [if_neg hquery]
    rfl

theorem afterRecord_frame {α : Type} {m : Moment} {p : String} {outcome : NetworkContextOutcome}
    {next : Bool → Contexts → Outcome α} (hk : k ≠ p)
    (hnext : ∀ b T', (next b T').1.get? k = T'.get? k) :
    (afterRecord T (recordNetworkContext m T p pg outcome) next).1.get? k = T.get? k := by
  unfold afterRecord
  split
  · rfl
  · rename_i hrecord
    exact (hnext _ _).trans (recordNetworkContext_frame hk hrecord)

/-- A turn leaves the rows of the other sources alone. -/
theorem processTarget_frame (env : Env) (pg : Postgres) (config : IpContextConfig) (turn : Turn)
    (T : Contexts) (hk : k ≠ target.pseudonym) :
    (processTarget env pg config turn target T).2.1.get? k = T.get? k := by
  have hskipped : (recordSkipped pg turn target.pseudonym T).1.get? k = T.get? k :=
    afterRecord_frame hk (fun _ _ => rfl)
  unfold processTarget
  split
  · exact hskipped
  · split
    · split
      · refine afterRecord_frame hk (fun stored T' => ?_)
        split
        · rfl
        · exact afterRecord_frame hk (fun _ _ => rfl)
      · exact afterRecord_frame hk (fun _ _ => rfl)
    · exact hskipped

/-- The turn is asked to wait exactly if its lookup is. -/
theorem processTarget_rateLimited (env : Env) (pg : Postgres) (config : IpContextConfig)
    (turn : Turn) (target : NetworkContextTarget) (T : Contexts) :
    (∃ s, (processTarget env pg config turn target T).2.2 = .ok (.rateLimited s)) ↔
      ∃ ip, LooksUp target ip ∧ AsksToWait env turn ip := by
  by_cases hlooks : ∃ ip, LooksUp target ip
  · obtain ⟨ip, hip⟩ := hlooks
    have hunique : ∀ ip', LooksUp target ip' → ip' = ip :=
      fun ip' h' => some.inj (h'.1.symm.trans hip.1)
    rw [processTarget_looksUp hip]
    constructor
    · rintro ⟨s, hs⟩
      refine ⟨ip, hip, ?_⟩
      cases hlookup : (lookup env turn.answer turn.fetchedAt ip).2 with
      | ok context =>
        rw [hlookup] at hs
        simp only [recordFound, afterRecord] at hs
        split at hs
        · cases hs
        · split at hs
          · split at hs <;> cases hs
          · split at hs <;> cases hs
      | error error =>
        rw [hlookup] at hs
        simp only [recordError_eq] at hs
        cases error with
        | rateLimited seconds => exact ⟨seconds, hlookup⟩
        | _ => cases hs
    · rintro ⟨ip', hip', s, hs⟩
      obtain rfl := hunique ip' hip'
      rw [hs]
      exact ⟨s, congrArg Prod.snd (recordError_eq target.pseudonym (.rateLimited s))⟩
  · constructor
    · rintro ⟨s, hs⟩
      rw [processTarget_skips (fun ip hip => hlooks ⟨ip, hip⟩)] at hs
      cases hs
    · rintro ⟨ip, hip, -⟩
      exact absurd ⟨ip, hip⟩ hlooks

/-- The row that the turn leaves for its source: the context, or a failure with its delay. -/
def Settled (env : Env) (turn : Turn) (p : String) (ip : IpAddr) (T : Contexts) : Prop :=
  StoredFor env turn p ip T ∨
    ∃ row, T.get? p = some row ∧ turn.first.now + seconds 30 ≤ row.nextAttemptAt

variable (hspells : ∀ n, pg.inetIn (displayIpNet n) = some n)

include hspells

/-- An accepted answer that meets the condition is settled by the turn. -/
theorem settled_of_recordable (config : IpContextConfig) (T : Contexts)
    (hlooks : LooksUp target ip) (haccepted : Accepted env turn ip info)
    (h : Recordable env turn target.pseudonym ip info) :
    (∃ count, (processTarget env pg config turn target T).2.2 = .ok count) ∧
      Settled env turn target.pseudonym ip (processTarget env pg config turn target T).2.1 := by
  rw [processTarget_looksUp hlooks]
  by_cases hwait : AsksToWait env turn ip
  · have hlive := h.waiting hwait
    obtain ⟨s, hs⟩ := hwait
    rw [hs]
    simp only [recordError_eq]
    refine ⟨⟨_, rfl⟩, .inr ?_⟩
    rw [if_neg (by rw [isNone_iff_eq_none]; exact ne_none_iff_isSome.2 hlive)]
    exact get?_recordFailure ..
  · obtain ⟨hplain, hmatches⟩ := h.answered hwait
    obtain ⟨context, hcontext⟩ := lookup_accepted hlooks.2 haccepted hwait
    obtain ⟨info', haccepted', hannounces, hverified⟩ := lookup_ok hcontext
    obtain rfl := Except.ok.inj (haccepted.1.symm.trans haccepted'.1)
    have hplain' : ∀ net, context.announced = some net → net.isNetwork = true :=
      fun net hnet => hplain net ((hannounces net).2 hnet)
    rw [hcontext]
    simp only
    by_cases hfirst : ∃ res, turn.first.resolution target.pseudonym = some res ∧
        ∀ net, context.announced = some net → net.contains res.rawIp.addr = true
    · obtain ⟨res, hres, hcontains⟩ := hfirst
      rw [recordFound_stored hspells hverified hplain' hres hcontains]
      obtain ⟨row, hrow, hexpires, hstatus, hannounced, horigins, hrpki⟩ :=
        get?_recordResult turn.first T target.pseudonym res (statusOf context) context.announced
          context.originAsns context.rpki.asStr config.ttlSeconds
      refine ⟨⟨_, rfl⟩, .inl ⟨context, row, hcontext, hrow, ?_, hstatus, hannounced, horigins,
        hrpki⟩⟩
      have hlive : turn.first.now < res.expiresAt := by
        have hfilter := (filter_eq_some_iff.1 hres).2
        rw [Bool.and_eq_true] at hfilter
        exact of_decide_eq_true hfilter.1
      have httl : 0 < seconds config.ttlSeconds :=
        Nat.mul_pos (Nat.lt_of_lt_of_le (by decide) config.ttl_range.1) (by decide)
      rw [hexpires]
      exact Nat.lt_min.2 ⟨Nat.lt_add_of_pos_right httl, hlive⟩
    · rw [recordFound_refused hspells hverified hplain' hfirst]
      refine ⟨⟨_, rfl⟩, .inr ?_⟩
      have hlive : (turn.second.resolution target.pseudonym).isSome = true := by
        refine hmatches.resolve_left ?_
        rintro ⟨res, hres, hcontains⟩
        exact hfirst ⟨res, hres, fun net hnet => hcontains net ((hannounces net).2 hnet)⟩
      rw [if_neg (by rw [isNone_iff_eq_none]; exact ne_none_iff_isSome.2 hlive)]
      obtain ⟨row, hrow, hnext⟩ :=
        get?_recordFailure turn.second T target.pseudonym 0 "refused_by_database"
      exact ⟨row, hrow, Nat.le_trans (Nat.add_le_add_right turn.ordered _) hnext⟩

/-- Only such an answer is settled, for a source that was due. -/
theorem recordable_of_settled (hlooks : LooksUp target ip) (haccepted : Accepted env turn ip info)
    (hdue : ∀ row, T.get? target.pseudonym = some row → row.covers turn.first.now = false)
    (hok : ∃ count, (processTarget env pg config turn target T).2.2 = .ok count)
    (hsettled : Settled env turn target.pseudonym ip
      (processTarget env pg config turn target T).2.1) :
    Recordable env turn target.pseudonym ip info := by
  have hunsettled : ¬ Settled env turn target.pseudonym ip T := by
    rintro (⟨context, row, -, hrow, hlive, hstatus, -⟩ | ⟨row, hrow, hnext⟩)
    · have hcovers : row.covers turn.first.now = true := by
        rw [ContextRow.covers, decide_eq_true hlive, hstatus]
        cases context.announced <;> rfl
      rw [hdue row hrow] at hcovers
      cases hcovers
    · have hcovers : row.covers turn.first.now = true := by
        have hlt : turn.first.now < row.nextAttemptAt :=
          Nat.lt_of_lt_of_le (Nat.lt_add_of_pos_right (by decide)) hnext
        rw [ContextRow.covers, decide_eq_true hlt, Bool.or_true]
      rw [hdue row hrow] at hcovers
      cases hcovers
  rw [processTarget_looksUp hlooks] at hok hsettled
  refine ⟨fun hwait => ?_, fun hwait => ?_⟩
  · obtain ⟨s, hs⟩ := hwait
    rw [hs] at hsettled
    simp only [recordError_eq] at hsettled
    by_contra hdead
    rw [if_pos (by rwa [isNone_iff_eq_none, ← not_isSome_iff_eq_none])] at hsettled
    exact hunsettled hsettled
  · obtain ⟨context, hcontext⟩ := lookup_accepted hlooks.2 haccepted hwait
    obtain ⟨info', haccepted', hannounces, hverified⟩ := lookup_ok hcontext
    obtain rfl := Except.ok.inj (haccepted.1.symm.trans haccepted'.1)
    rw [hcontext] at hok hsettled
    simp only at hok hsettled
    have hplain : ∀ net, context.announced = some net → net.isNetwork = true := by
      intro net hnet
      by_contra hbits
      obtain ⟨error, herror⟩ := recordFound_hostBits hspells config turn
        target.pseudonym T hnet (Bool.eq_false_of_not_eq_true hbits)
      obtain ⟨count, hcount⟩ := hok
      rw [herror] at hcount
      cases hcount
    refine ⟨fun net hnet => hplain net ((hannounces net).1 hnet), ?_⟩
    by_contra hneither
    obtain ⟨hfirst, hsecond⟩ := not_or.1 hneither
    have hfirst' : ¬ ∃ res, turn.first.resolution target.pseudonym = some res ∧
        ∀ net, context.announced = some net → net.contains res.rawIp.addr = true := by
      rintro ⟨res, hres, hcontains⟩
      exact hfirst ⟨res, hres, fun net hnet => hcontains net ((hannounces net).1 hnet)⟩
    rw [recordFound_refused hspells hverified hplain hfirst',
      if_pos (by rwa [isNone_iff_eq_none, ← not_isSome_iff_eq_none])] at hsettled
    exact hunsettled hsettled

/-- A turn raises nothing if an accepted answer announces no host bits. -/
theorem processTarget_ok
    (h : ∀ ip info, LooksUp target ip → Accepted env turn ip info → ¬ AsksToWait env turn ip →
      ∀ net, Announces env info net → net.isNetwork = true) :
    ∃ count, (processTarget env pg config turn target T).2.2 = .ok count := by
  by_cases hlooks : ∃ ip, LooksUp target ip
  · obtain ⟨ip, hip⟩ := hlooks
    rw [processTarget_looksUp hip]
    cases hlookup : (lookup env turn.answer turn.fetchedAt ip).2 with
    | error error =>
      simp only [recordError_eq]
      exact ⟨_, rfl⟩
    | ok context =>
      obtain ⟨info, haccepted, hannounces, hverified⟩ := lookup_ok hlookup
      have hwait : ¬ AsksToWait env turn ip := by
        rintro ⟨s, hs⟩
        rw [hlookup] at hs
        cases hs
      have hplain : ∀ net, context.announced = some net → net.isNetwork = true :=
        fun net hnet => h ip info hip haccepted hwait net ((hannounces net).2 hnet)
      simp only
      by_cases hfirst : ∃ res, turn.first.resolution target.pseudonym = some res ∧
          ∀ net, context.announced = some net → net.contains res.rawIp.addr = true
      · obtain ⟨res, hres, hcontains⟩ := hfirst
        rw [recordFound_stored hspells hverified hplain hres hcontains]
        exact ⟨_, rfl⟩
      · rw [recordFound_refused hspells hverified hplain hfirst]
        exact ⟨_, rfl⟩
  · exact ⟨_, processTarget_skips (fun ip hip => hlooks ⟨ip, hip⟩)⟩

end Target

/-! ## The targets of a cycle -/

section Targets

variable {env : Env} {pg : Postgres} {config : IpContextConfig} {turns : String → Turn}
  {k : String} {target : NetworkContextTarget} {targets : List NetworkContextTarget}

theorem nodup_networkContextTargets {m : Moment} {T : Contexts}
    {limit assessmentMaxAge minConfidence : Nat} :
    ((networkContextTargets pg m T limit assessmentMaxAge minConfidence).map
      NetworkContextTarget.pseudonym).Nodup := by
  unfold networkContextTargets
  rw [List.map_map]
  have hsorted := List.perm_insertionSort (ranksBefore m assessmentMaxAge)
    (m.resolutions.rows.filter (isTarget m T assessmentMaxAge minConfidence))
  have hnodup : ((m.resolutions.rows.filter (isTarget m T assessmentMaxAge minConfidence)).map
      Resolution.pseudonym).Nodup := m.resolutions.unique.sublist (List.filter_sublist.map _)
  exact ((hsorted.map _).nodup_iff.2 hnodup).sublist ((List.take_sublist _ _).map _)

/-- A listed source has no row, or one that does not cover it. -/
theorem due_of_mem_targets {m : Moment} {T : Contexts} {limit assessmentMaxAge minConfidence : Nat}
    (h : target ∈ networkContextTargets pg m T limit assessmentMaxAge minConfidence)
    {row : ContextRow} (hrow : T.get? target.pseudonym = some row) : row.covers m.now = false := by
  unfold networkContextTargets at h
  obtain ⟨r, hr, rfl⟩ := List.mem_map.1 h
  have hmem := List.mem_of_mem_take hr
  rw [List.mem_insertionSort, List.mem_filter] at hmem
  have htarget := hmem.2
  unfold isTarget at htarget
  simp only [Bool.and_eq_true, Bool.not_eq_true'] at htarget
  have hany := htarget.2
  rw [show T.get? r.pseudonym = some row from hrow] at hany
  exact hany

/-- A source that is not among the targets keeps its row. -/
theorem processTargets_frame {report : CycleReport} {T : Contexts}
    (hk : ∀ target ∈ targets, k ≠ target.pseudonym) :
    (processTargets env pg config turns targets report T).2.1.get? k = T.get? k := by
  induction targets generalizing report T with
  | nil => rfl
  | cons target rest ih =>
    have hframe := processTarget_frame env pg config (turns target.pseudonym) T
      (hk target List.mem_cons_self)
    have hrest := fun report T' =>
      @ih report T' (fun t ht => hk t (List.mem_cons_of_mem _ ht))
    unfold processTargets
    rcases hturn : processTarget env pg config (turns target.pseudonym) target T with
      ⟨requests, T', error | count⟩
    · rw [hturn] at hframe
      exact hframe
    · rw [hturn] at hframe
      cases count with
      | rateLimited s => exact hframe
      | _ => exact (hrest _ T').trans hframe

/-- The sum of the counters of a report. -/
abbrev CycleReport.processed (report : CycleReport) : Nat :=
  report.routed + report.unrouted + report.skippedNonPublic + report.failed +
    report.refusedByDatabase

theorem processed_add (report : CycleReport) (count : Count) :
    (report.add count).processed = report.processed + 1 := by
  cases count <;> simp only [CycleReport.processed, CycleReport.add] <;> omega

/-- If no turn that it comes to raises, the loop goes through its targets or is asked to
wait. -/
theorem processTargets_ok (report : CycleReport) (T : Contexts)
    (h : ∀ target, Reached env turns targets target → ∀ T', ∃ count,
      (processTarget env pg config (turns target.pseudonym) target T').2.2 = .ok count) :
    ∃ report' pause, (processTargets env pg config turns targets report T).2.2 =
        .ok (report', pause) ∧ report'.targets = report.targets ∧
      (report'.rateLimited = true ∨ report'.processed = report.processed + targets.length) := by
  induction targets generalizing report T with
  | nil => exact ⟨report, none, rfl, rfl, .inr rfl⟩
  | cons target rest ih =>
    obtain ⟨count, hcount⟩ := h target (.head target rest) T
    have hwaits := processTarget_rateLimited env pg config (turns target.pseudonym) target T
    unfold processTargets
    rcases hturn : processTarget env pg config (turns target.pseudonym) target T with
      ⟨requests, T', error | count'⟩
    · rw [hturn] at hcount
      cases hcount
    · rw [hturn] at hwaits
      by_cases hlimited : ∃ s, count' = .rateLimited s
      · obtain ⟨s, rfl⟩ := hlimited
        exact ⟨_, _, rfl, rfl, .inl rfl⟩
      · have hgoes : ∀ ip, LooksUp target ip → ¬ AsksToWait env (turns target.pseudonym) ip := by
          intro ip hip hasks
          obtain ⟨s, hs⟩ := hwaits.2 ⟨ip, hip, hasks⟩
          exact hlimited ⟨s, Except.ok.inj hs⟩
        obtain ⟨report', pause, hresult, htargets, hprocessed⟩ :=
          @ih (report.add count') T' (fun t ht => h t (.tail hgoes ht))
        have hsame : (report.add count').targets = report.targets := by cases count' <;> rfl
        have hsum : report'.rateLimited = true ∨
            report'.processed = report.processed + (target :: rest).length := by
          refine hprocessed.imp_right (fun hsum => ?_)
          rw [hsum, processed_add, List.length_cons]
          omega
        cases count' with
        | rateLimited s => exact absurd ⟨s, rfl⟩ hlimited
        | _ => exact ⟨report', pause, hresult, htargets.trans hsame, hsum⟩

theorem Reached.mem (h : Reached env turns targets target) : target ∈ targets := by
  induction h with
  | head => exact List.mem_cons_self
  | tail _ _ ih => exact List.mem_cons_of_mem _ ih

/-- If the loop raises nothing, each turn that it comes to raised nothing, and what it left for
its source is left by the loop. -/
theorem processTargets_turn {report : CycleReport} {T : Contexts}
    (hreached : Reached env turns targets target)
    (hnodup : (targets.map NetworkContextTarget.pseudonym).Nodup)
    (hok : ∃ result, (processTargets env pg config turns targets report T).2.2 = .ok result) :
    ∃ T₀, T₀.get? target.pseudonym = T.get? target.pseudonym ∧
      (∃ count,
        (processTarget env pg config (turns target.pseudonym) target T₀).2.2 = .ok count) ∧
      (processTargets env pg config turns targets report T).2.1.get? target.pseudonym =
        (processTarget env pg config (turns target.pseudonym) target T₀).2.1.get?
          target.pseudonym := by
  induction hreached generalizing report T with
  | head target rest =>
    have hrest : ∀ t ∈ rest, target.pseudonym ≠ t.pseudonym := by
      rw [List.map_cons, List.nodup_cons] at hnodup
      exact fun t ht heq => hnodup.1 (heq ▸ List.mem_map_of_mem ht)
    refine ⟨T, rfl, ?_⟩
    unfold processTargets at hok ⊢
    rcases hturn : processTarget env pg config (turns target.pseudonym) target T with
      ⟨requests, T', error | count⟩
    · rw [hturn] at hok
      obtain ⟨result, hresult⟩ := hok
      cases hresult
    · refine ⟨⟨count, rfl⟩, ?_⟩
      cases count with
      | rateLimited s => rfl
      | _ => exact processTargets_frame hrest
  | @tail other rest target hgoes hreached ih =>
    rw [List.map_cons, List.nodup_cons] at hnodup
    have hne : target.pseudonym ≠ other.pseudonym :=
      fun heq => hnodup.1 (heq ▸ List.mem_map_of_mem hreached.mem)
    have hframe := processTarget_frame env pg config (turns other.pseudonym) T hne
    have hwaits := processTarget_rateLimited env pg config (turns other.pseudonym) other T
    unfold processTargets at hok ⊢
    rcases hturn : processTarget env pg config (turns other.pseudonym) other T with
      ⟨requests, T', error | count⟩
    · rw [hturn] at hok
      obtain ⟨result, hresult⟩ := hok
      cases hresult
    · rw [hturn] at hok hframe hwaits
      have hstep := fun report hok => @ih report T' hnodup.2 hok
      rw [hframe] at hstep
      cases count with
      | rateLimited s =>
        obtain ⟨ip, hip, hasks⟩ := hwaits.1 ⟨s, rfl⟩
        exact absurd hasks (hgoes ip hip)
      | _ => exact hstep _ hok

end Targets

/-! ## Cycles -/

section Cycle

variable {env : Env} {pg : Postgres} {config : IpContextConfig} {c : Cycle} {w : WorkerState}
  {p : String} {row : ContextRow}

/-- A cycle that does not wait is its loop over the targets. -/
theorem runCycle_ready (env : Env) (pg : Postgres) (config : IpContextConfig)
    (h : c.waits w = false) :
    ∃ report, report = { CycleReport.empty with
        targets := (c.targets pg config w.contexts).length } ∧
      (runCycle env pg config c w).1 =
        (processTargets env pg config c.turns (c.targets pg config w.contexts) report
          w.contexts).1 ∧
      (runCycle env pg config c w).2.1.contexts =
        (processTargets env pg config c.turns (c.targets pg config w.contexts) report
          w.contexts).2.1 ∧
      (runCycle env pg config c w).2.2 =
        (processTargets env pg config c.turns (c.targets pg config w.contexts) report
          w.contexts).2.2.map Prod.fst := by
  refine ⟨_, rfl, ?_⟩
  unfold runCycle
  rw [if_neg (by rw [h]; exact Bool.noConfusion)]
  dsimp only
  rcases processTargets env pg config c.turns (c.targets pg config w.contexts)
    { CycleReport.empty with targets := (c.targets pg config w.contexts).length } w.contexts with
    ⟨requests, T, error | ⟨report, pause⟩⟩
  · exact ⟨rfl, rfl, rfl⟩
  · exact ⟨rfl, rfl, rfl⟩

/-- A row that does not cover its source does not cover it later. -/
theorem covers_later {now later : Instant} (h : row.covers now = false) (hle : now ≤ later) :
    row.covers later = false := by
  unfold ContextRow.covers at h ⊢
  rw [Bool.or_eq_false_iff, Bool.and_eq_false_iff, decide_eq_false_iff_not,
    decide_eq_false_iff_not, decide_eq_false_iff_not] at h ⊢
  exact ⟨h.1.imp_right (fun hlive hlt => hlive (Nat.lt_of_le_of_lt hle hlt)),
    fun hlt => h.2 (Nat.lt_of_le_of_lt hle hlt)⟩

/-- A source that waits for its next attempt is not listed. -/
theorem not_listed (hrow : w.contexts.get? p = some row) (hlt : c.listing.now < row.nextAttemptAt) :
    ∀ target ∈ c.targets pg config w.contexts, target.pseudonym ≠ p := by
  rintro target htarget rfl
  have hdue := due_of_mem_targets htarget hrow
  rw [ContextRow.covers, decide_eq_true hlt, Bool.or_true] at hdue
  cases hdue

/-- A cycle keeps the row of a source that waits. -/
theorem runCycle_keeps (hrow : w.contexts.get? p = some row)
    (hlt : c.listing.now < row.nextAttemptAt) :
    (runCycle env pg config c w).2.1.contexts.get? p = some row := by
  cases hwaits : c.waits w with
  | true =>
    unfold runCycle
    rw [if_pos hwaits]
    exact hrow
  | false =>
    obtain ⟨report, -, -, hcontexts, -⟩ :=
      runCycle_ready env pg config hwaits
    rw [hcontexts, processTargets_frame (fun target htarget =>
      (not_listed hrow hlt target htarget).symm)]
    exact hrow

/-- No cycle before its next attempt lists the source again. -/
theorem notListedBefore_of_row (hrow : w.contexts.get? p = some row) :
    NotListedBefore env pg config w p row.nextAttemptAt := by
  intro cycles w' c hrun hcycles hlt
  have hkept : w'.contexts.get? p = some row := by
    clear hlt
    induction hrun with
    | nil => exact hrow
    | cons hstep _ ih =>
      refine ih ?_ (fun c' hc' => hcycles c' (List.mem_cons_of_mem _ hc'))
      rw [show _ = _ from hstep]
      exact runCycle_keeps hrow (hcycles _ List.mem_cons_self)
  exact not_listed hkept hlt

theorem settled_congr {turn : Turn} {ip : IpAddr} {T T' : Contexts} (h : T'.get? p = T.get? p)
    (hsettled : Settled env turn p ip T) : Settled env turn p ip T' := by
  rcases hsettled with ⟨context, row, hcontext, hrow, hrest⟩ | ⟨row, hrow, hnext⟩
  · exact .inl ⟨context, row, hcontext, h.trans hrow, hrest⟩
  · exact .inr ⟨row, h.trans hrow, hnext⟩

/-- A cycle goes through its targets and settles every accepted answer exactly if each answer
that it comes to announces no host bits, for a source that resolves when it is recorded. -/
theorem cycleSound_iff (hspells : ∀ n, pg.inetIn (displayIpNet n) = some n) (c : Cycle)
    (w : WorkerState) :
    CycleSound env pg config c w ↔
      (c.waits w = false →
        ∀ target, Reached env c.turns (c.targets pg config w.contexts) target →
          ∀ ip info, LooksUp target ip → Accepted env (c.turns target.pseudonym) ip info →
            Recordable env (c.turns target.pseudonym) target.pseudonym ip info) := by
  constructor
  · rintro ⟨⟨report, hreport, -⟩, hsettles⟩ hready target hreached ip info hlooks haccepted
    obtain ⟨empty, -, -, hcontexts, hresult⟩ :=
      runCycle_ready env pg config hready
    obtain ⟨result, hok, -⟩ := except_map_ok (hresult.symm.trans hreport)
    obtain ⟨T₀, hsame, hcount, hfinal⟩ :=
      processTargets_turn hreached nodup_networkContextTargets ⟨result, hok⟩
    have hdue : ∀ row, T₀.get? target.pseudonym = some row →
        row.covers (c.turns target.pseudonym).first.now = false := fun row hrow =>
      covers_later (due_of_mem_targets hreached.mem (hsame.symm.trans hrow)) (c.ordered _)
    refine recordable_of_settled hspells hlooks haccepted hdue hcount
      (settled_congr (hfinal.symm.trans
        (congrArg (Table.get? · target.pseudonym) hcontexts.symm)) ?_)
    rcases hsettles hready target hreached ip info hlooks haccepted with
      hstored | ⟨row, hrow, hnext, -⟩
    · exact .inl hstored
    · exact .inr ⟨row, hrow, hnext⟩
  · intro h
    cases hwaits : c.waits w with
    | true =>
      refine ⟨⟨{ CycleReport.empty with paused := true }, ?_, .inl rfl⟩, ?_⟩
      · unfold runCycle
        rw [if_pos hwaits]
      · intro hready
        rw [hwaits] at hready
        cases hready
    | false =>
      obtain ⟨empty, hempty, -, hcontexts, hresult⟩ :=
        runCycle_ready env pg config hwaits
      obtain ⟨report, pause, hok, htargets, hprocessed⟩ :=
        processTargets_ok empty w.contexts (fun target hreached T' => processTarget_ok hspells
            (fun ip info hlooks haccepted hwait =>
              ((h hwaits target hreached ip info hlooks haccepted).answered hwait).1))
      refine ⟨⟨report, hresult.trans (congrArg (Except.map Prod.fst) hok), .inr ?_⟩, ?_⟩
      · subst hempty
        refine hprocessed.imp_right (fun hsum => hsum.trans ?_)
        rw [htargets]
        exact Nat.zero_add _
      · intro _ target hreached ip info hlooks haccepted
        obtain ⟨T₀, -, -, hfinal⟩ :=
          processTargets_turn hreached nodup_networkContextTargets ⟨_, hok⟩
        have hsettled := (settled_of_recordable hspells config T₀ hlooks haccepted
          (h hwaits target hreached ip info hlooks haccepted)).2
        rcases settled_congr ((congrArg (Table.get? · target.pseudonym) hcontexts).trans hfinal)
          hsettled with hstored | ⟨row, hrow, hnext⟩
        · exact .inl hstored
        · exact .inr ⟨row, hrow, hnext, notListedBefore_of_row hrow⟩

end Cycle

/-! ## A network with host bits -/

theorem readIpNet_displayIpNet (n : IpNet) : readIpNet (displayIpNet n) = some n := by
  have hslash : '/' ∉ displayIpAddr n.addr :=
    not_mem_of_parseIpAddr (parseIpAddr_displayIpAddr n.addr) (by decide)
  have hwidth : n.addr.width ≤ 128 := by
    unfold IpAddr.width
    split <;> omega
  have hlength := n.prefixLen_le
  unfold readIpNet displayIpNet
  rw [String.toList_ofList, Text.splitOnce_append hslash]
  simp only [parseIpAddr_displayIpAddr, Text.parseU8_toDigits (show n.prefixLen < 256 by omega)]
  exact dif_pos hlength

theorem standardPostgres_spells (n : IpNet) :
    standardPostgres.inetIn (displayIpNet n) = some n := by
  have haddr : parseIpAddr (displayIpNet n).toList = none := by
    cases hparse : parseIpAddr (displayIpNet n).toList with
    | none => rfl
    | some a =>
      exact absurd (readIpNet_chars (readIpNet_displayIpNet n)).1
        (not_mem_of_parseIpAddr hparse (by decide))
  show ((parseIpAddr (displayIpNet n).toList).map hostNet).or (readIpNet (displayIpNet n)) = _
  rw [haddr, readIpNet_displayIpNet]
  rfl

def hostBitsBody : ByteArray := bodyOf "\"asns\":[\"3333\"],\"prefix\":\"193.0.6.139/21\""

/-- The readers at this body. -/
def hostBitsEnv : Env where
  fromSlice bytes :=
    if bytes = hostBitsBody then
      .ok (answered [("asns", .array [.string "3333"]), ("prefix", .string "193.0.6.139/21")])
    else .error ""
  fromStr _ := .error ""
  utf8Error _ := ""
  parseIpNet := readIpNet

/-- One confident assessment of one source, which resolves for an hour. -/
def suspectMoment : Moment :=
  ⟨0, ⟨[⟨"pseudonym", hostNet ripeAddress, seconds 3600⟩], List.nodup_singleton _⟩,
    [⟨"pseudonym", 90, 0⟩]⟩

/-- The API announces the network, and no validity. -/
def hostBitsTurn : Turn where
  answer
    | .networkInfo _ => .ok hostBitsBody
    | .rpkiValidation _ _ => .error .transport
  fetchedAt := 0
  first := suspectMoment
  second := suspectMoment
  ordered := Nat.le_refl _

def hostBitsCycle : Cycle := ⟨0, suspectMoment, fun _ => hostBitsTurn, fun _ => Nat.le_refl _⟩

def politeConfig : IpContextConfig :=
  ⟨80, 3600, 5, 21600, by decide, by decide, by decide, by decide⟩

def startState : WorkerState := ⟨Table.empty _, none⟩

/-- The condition at this cycle is the exact one. -/
theorem cycleSound_iff_host_bits :
    (∀ n, standardPostgres.inetIn (displayIpNet n) = some n) ∧
      (CycleSound hostBitsEnv standardPostgres politeConfig hostBitsCycle startState ↔
        (hostBitsCycle.waits startState = false → ∀ target,
          Reached hostBitsEnv hostBitsCycle.turns
            (hostBitsCycle.targets standardPostgres politeConfig startState.contexts) target →
          ∀ ip info, LooksUp target ip →
            Accepted hostBitsEnv (hostBitsCycle.turns target.pseudonym) ip info →
            Recordable hostBitsEnv (hostBitsCycle.turns target.pseudonym) target.pseudonym ip
              info)) :=
  ⟨standardPostgres_spells, cycleSound_iff standardPostgres_spells hostBitsCycle startState⟩

/-- The answer is accepted, its record ends the cycle with an error and leaves no row, and the
next cycle asks for it again. -/
theorem host_bits_stall_cycle :
    ¬ CycleSound hostBitsEnv standardPostgres politeConfig hostBitsCycle startState ∧
      Accepted hostBitsEnv hostBitsTurn ripeAddress hostBitsBody ∧
      (runCycle hostBitsEnv standardPostgres politeConfig hostBitsCycle startState).2.1 =
        startState := by
  have hresult : (runCycle hostBitsEnv standardPostgres politeConfig hostBitsCycle
      startState).2.2 = .error (.sql (.invalidCidr "193.0.6.139/21")) := by
    decide
  refine ⟨?_, ⟨rfl, some (⟨.v4 3238004363, 21, by decide⟩, [3333]), by decide⟩, ?_⟩
  · rintro ⟨⟨report, hreport, -⟩, -⟩
    cases hresult.symm.trans hreport
  · rfl

end Clawforge.NetworkContext
