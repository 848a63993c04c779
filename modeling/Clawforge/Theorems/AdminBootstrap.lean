import Clawforge.Api.AdminBootstrap

/-!
# How many administrators a bootstrap creates

A request that arrives when there is an administrator is refused. One that has found no account
goes on whatever happens meanwhile, so each of several such requests creates an account of its
own, unless their names collide.
-/

namespace Clawforge.AdminBootstrap

open Kit TSys List Option

variable {cfg : Config} {w w' : World} {c : Call} {i : Nat} {a : Action} {users : AdminUsers}
  {user : AdminUser}

/-! ## The property -/

/-- The request has been told that it comes too late, or that the store is not there. -/
def Refusal (phase : Phase) : Prop :=
  phase = .answered (.error (conflict "bootstrap already completed")) ∨
    phase = .answered (.error (unavailable "storage unavailable"))

/-- At most one request has created an account, and those that came when there was an administrator
are refused. -/
structure OneBootstrap (w : World) : Prop where
  once : w.created.length ≤ 1
  late : ∀ c ∈ w.calls, c.late = true → c.phase = .arrived ∨ Refusal c.phase

/-- An insertion finds the table as the count has found it, or the account there already. -/
def Untouched (w : World) : Action → Prop
  | .insert i id true => ∀ c ∈ w.calls[i]?, ∀ username passwordHash,
      c.phase = .hashed username passwordHash → w.users.rows = [] ∨
        createAdminUser w.users ⟨id, username, "Administrator", passwordHash⟩ = none
  | _ => True

/-! ## Steps -/

/-- A request that will still insert an account. -/
def Phase.Pending (p : Phase) : Prop :=
  p = .counted ∨ (∃ username, p = .checked username) ∨
    ∃ username passwordHash, p = .hashed username passwordHash

/-- A statement that creates no account: a request becomes pending only if there is no account, and
one that has just arrived is refused if there is one. -/
structure Continues (users : AdminUsers) (p q : Phase) : Prop where
  notAnswered : ∀ result, p ≠ .answered result
  pending : q.Pending → p.Pending ∨ users.rows = []
  arrived : p = .arrived → users.rows ≠ [] → Refusal q

theorem not_pending_answered (result : Except ApiError Unit) : ¬ (Phase.answered result).Pending := by
  rintro (h | ⟨_, h⟩ | ⟨_, _, h⟩) <;> cases h

theorem not_pending_opened (user : AdminUser) : ¬ (Phase.opened user).Pending := by
  rintro (h | ⟨_, h⟩ | ⟨_, _, h⟩) <;> cases h

/-- Past its count and before its answer. -/
def Phase.counts : Phase → Bool
  | .arrived | .answered _ => false
  | _ => true

/-- A request past its count goes on without another look at the table. -/
theorem Continues.on {p q : Phase} (hp : p.counts = true) (h : q.Pending → p.Pending) :
    Continues users p q where
  notAnswered result heq := by rw [heq] at hp; cases hp
  pending hq := .inl (h hq)
  arrived heq := by rw [heq] at hp; cases hp

theorem Continues.refuse {p : Phase} (hp : p.counts = true) (e : ApiError) :
    Continues users p (.answered (.error e)) :=
  .on hp fun h => absurd h (not_pending_answered _)

/-- What a statement of a request does: it moves the request on, or creates its account. -/
theorem stepCall_cases (h : stepCall cfg w i c a = some w') :
    (∃ phase, Continues w.users c.phase phase ∧ w'.users = w.users ∧ w'.created = w.created ∧
      w'.calls = w.calls.set i { c with phase }) ∨
    (∃ j id username passwordHash users, a = .insert j id true ∧
      c.phase = .hashed username passwordHash ∧
      createAdminUser w.users ⟨id, username, "Administrator", passwordHash⟩ = some users ∧
      w' = w.create i c ⟨id, username, "Administrator", passwordHash⟩ users) := by
  cases a with
  | arrive | createUser => cases h
  | count j ok =>
    left
    simp only [stepCall] at h
    split at h
    case isFalse => cases h
    case isTrue hphase =>
      have hopen : ∀ result, c.phase ≠ .answered result := by
        intro result
        rw [hphase]
        exact nofun
      split at h
      case isTrue =>
        cases h
        exact ⟨_, ⟨hopen, fun hp => absurd hp (not_pending_answered _), fun _ _ => .inr rfl⟩,
          rfl, rfl, rfl⟩
      case isFalse =>
        split at h
        case isTrue =>
          cases h
          exact ⟨_, ⟨hopen, fun hp => absurd hp (not_pending_answered _), fun _ _ => .inl rfl⟩,
            rfl, rfl, rfl⟩
        case isFalse hempty =>
          cases h
          exact ⟨_, ⟨hopen, fun _ => .inr (not_not.1 hempty),
            fun _ hne => absurd (not_not.1 hempty) hne⟩, rfl, rfl, rfl⟩
  | check j =>
    left
    simp only [stepCall] at h
    split at h
    case isFalse => cases h
    case isTrue hphase =>
      have hcounts : c.phase.counts = true := by rw [hphase]; rfl
      split at h
      case h_1 e _ =>
        cases h
        exact ⟨_, .refuse hcounts e, rfl, rfl, rfl⟩
      case h_2 =>
        cases h
        exact ⟨_, .on hcounts fun _ => .inl hphase, rfl, rfl, rfl⟩
  | hash j result =>
    left
    simp only [stepCall] at h
    split at h
    case h_3 => cases h
    case h_1 username passwordHash hphase =>
      cases h
      exact ⟨_, .on (by rw [hphase]; rfl) fun _ => .inr (.inl ⟨username, hphase⟩), rfl, rfl, rfl⟩
    case h_2 username hphase =>
      cases h
      exact ⟨_, .refuse (by rw [hphase]; rfl) _, rfl, rfl, rfl⟩
  | insert j id ok =>
    simp only [stepCall] at h
    split at h
    case h_2 => cases h
    case h_1 username passwordHash hphase =>
      have hrefuse : Continues w.users c.phase
          (.answered (.error (conflict "administrator could not be created"))) :=
        .refuse (by rw [hphase]; rfl) _
      cases ok with
      | false =>
        cases h
        exact .inl ⟨_, hrefuse, rfl, rfl, rfl⟩
      | true =>
        cases hcreate : createAdminUser w.users
            ⟨id, username, "Administrator", passwordHash⟩ with
        | none =>
          simp only [World.insert, if_true, hcreate] at h
          cases h
          exact .inl ⟨_, hrefuse, rfl, rfl, rfl⟩
        | some users =>
          simp only [World.insert, if_true, hcreate] at h
          cases h
          exact .inr ⟨j, id, username, passwordHash, users, rfl, hphase, hcreate, rfl⟩
  | openSession _ _ _ ok | recordAudit _ ok =>
    left
    simp only [stepCall] at h
    split at h
    case h_2 => cases h
    case h_1 user hphase =>
      have hcounts : c.phase.counts = true := by rw [hphase]; rfl
      cases ok with
      | true =>
        cases h
        refine ⟨_, .on hcounts fun hp => absurd hp ?_, rfl, rfl, rfl⟩
        first | exact not_pending_opened _ | exact not_pending_answered _
      | false =>
        cases h
        exact ⟨_, .refuse hcounts _, rfl, rfl, rfl⟩

theorem rows_createAdminUser {users' : AdminUsers} (h : createAdminUser users user = some users') :
    users'.rows = users.rows ++ [user] := by
  unfold createAdminUser at h
  split at h
  · cases h
  · exact Table.rows_insert? h

theorem rows_ne_nil_createAdminUser {users' : AdminUsers}
    (h : createAdminUser users user = some users') : users'.rows ≠ [] := by
  rw [rows_createAdminUser h]
  exact append_ne_nil_of_right_ne_nil _ (cons_ne_nil _ _)

theorem rows_ne_nil_of_hasAdministrator (h : w.hasAdministrator = true) : w.users.rows ≠ [] := by
  intro hnil
  unfold World.hasAdministrator at h
  rw [hnil] at h
  cases h

/-! ## The invariant -/

/-- Where a request is pending, all accounts come from the first bootstrap on. -/
structure Sound (w : World) : Prop where
  pending : ∀ c ∈ w.calls, c.phase.Pending → w.users.rows ≠ [] → w.created ≠ []
  created : w.created ≠ [] → w.users.rows ≠ []
  came : ∀ c ∈ w.calls, c.late = true → w.users.rows ≠ []
  late : ∀ c ∈ w.calls, c.late = true → c.phase = .arrived ∨ Refusal c.phase

theorem sound_init (h : Initial w) : Sound w where
  pending c hc := by
    rw [h.1] at hc
    cases hc
  created hne := absurd h.2 hne
  came c hc := by
    rw [h.1] at hc
    cases hc
  late c hc := by
    rw [h.1] at hc
    cases hc

/-- A request moves on without an account of its own. -/
theorem Sound.continue {phase : Phase} (h : Sound w) (hi : w.calls[i]? = some c)
    (hcont : Continues w.users c.phase phase) (husers : w'.users = w.users)
    (hcreated : w'.created = w.created) (hcalls : w'.calls = w.calls.set i { c with phase }) :
    Sound w' := by
  have hc := mem_of_getElem? hi
  constructor
  case pending =>
    intro x hx hpending hrows
    rw [husers] at hrows
    rw [hcreated]
    rw [hcalls] at hx
    rcases mem_or_eq_of_mem_set hx with hx | rfl
    · exact h.pending x hx hpending hrows
    · rcases hcont.pending hpending with hp | hnil
      · exact h.pending c hc hp hrows
      · exact absurd hnil hrows
  case created =>
    rw [hcreated, husers]
    exact h.created
  case came =>
    intro x hx hlate
    rw [husers]
    rw [hcalls] at hx
    rcases mem_or_eq_of_mem_set hx with hx | rfl
    · exact h.came x hx hlate
    · exact h.came c hc hlate
  case late =>
    intro x hx hlate
    rw [hcalls] at hx
    rcases mem_or_eq_of_mem_set hx with hx | rfl
    · exact h.late x hx hlate
    · rcases h.late c hc hlate with harrived | hrefused
      · exact .inr (hcont.arrived harrived (h.came c hc hlate))
      · rcases hrefused with hrefused | hrefused
        · exact absurd hrefused (hcont.notAnswered _)
        · exact absurd hrefused (hcont.notAnswered _)

theorem Sound.create {username passwordHash : String} (h : Sound w) (hi : w.calls[i]? = some c)
    (hphase : c.phase = .hashed username passwordHash)
    (hcreate : createAdminUser w.users user = some users) : Sound (w.create i c user users) where
  pending _ _ _ _ := cons_ne_nil _ _
  created _ := rows_ne_nil_createAdminUser hcreate
  came _ _ _ := rows_ne_nil_createAdminUser hcreate
  late x hx hlate := by
    rcases mem_or_eq_of_mem_set hx with hx | rfl
    · exact h.late x hx hlate
    · -- a request that came late never gets as far as its insertion
      rcases h.late c (mem_of_getElem? hi) hlate with hp | hp | hp
      all_goals rw [hphase] at hp; cases hp

theorem Sound.step (h : Sound w) (hstep : exec cfg w a = some w') : Sound w' := by
  unfold exec at hstep
  cases hcall : a.call with
  | some i =>
    rw [hcall] at hstep
    obtain ⟨c, hi, hc⟩ := bind_eq_some_iff.1 hstep
    rcases stepCall_cases hc with ⟨phase, hcont, husers, hcreated, hcalls⟩ |
      ⟨j, id, username, passwordHash, users, -, hphase, hcreate, rfl⟩
    · exact h.continue hi hcont husers hcreated hcalls
    · exact h.create hi hphase hcreate
  | none =>
    rw [hcall] at hstep
    cases a with
    | arrive request =>
      cases hstep
      refine ⟨fun c hc hpending => ?_, h.created, fun c hc hlate => ?_, fun c hc hlate => ?_⟩
      · rcases mem_append.1 hc with hc | hc
        · exact h.pending c hc hpending
        · rw [mem_singleton.1 hc] at hpending
          rcases hpending with hp | ⟨_, hp⟩ | ⟨_, _, hp⟩ <;> cases hp
      · rcases mem_append.1 hc with hc | hc
        · exact h.came c hc hlate
        · rw [mem_singleton.1 hc] at hlate
          exact rows_ne_nil_of_hasAdministrator hlate
      · rcases mem_append.1 hc with hc | hc
        · exact h.late c hc hlate
        · rw [mem_singleton.1 hc]
          exact .inl rfl
    | createUser user =>
      simp only at hstep
      split at hstep
      case isFalse => cases hstep
      case isTrue hadmin =>
        obtain ⟨users, hcreate, rfl⟩ := map_eq_some_iff.1 hstep
        have hrows := rows_ne_nil_of_hasAdministrator hadmin
        exact ⟨fun c hc hpending _ => h.pending c hc hpending hrows,
          fun _ => rows_ne_nil_createAdminUser hcreate,
          fun _ _ _ => rows_ne_nil_createAdminUser hcreate, h.late⟩
    | count | check | hash | insert | openSession | recordAudit => cases hcall

theorem sound_invariant (cfg : Config) : (bootstrapSystem cfg).Invariant Sound :=
  Inductive.invariant
    { init := fun _ h => sound_init h
      step := fun _ _ _ h hstep => h.step hstep }

/-! ## Runs -/

/-- An insertion that changes nothing was refused by the table. -/
theorem refused_of_created_eq {j : Nat} {id : Uuid} {username passwordHash : String}
    (hphase : c.phase = .hashed username passwordHash)
    (h : stepCall cfg w i c (.insert j id true) = some w') (hcreated : w'.created = w.created) :
    createAdminUser w.users ⟨id, username, "Administrator", passwordHash⟩ = none := by
  cases hcreate : createAdminUser w.users ⟨id, username, "Administrator", passwordHash⟩ with
  | none => rfl
  | some users =>
    simp only [stepCall, hphase, World.insert, if_true, hcreate] at h
    cases h
    exact absurd hcreated (cons_ne_self i w.created)

/-- A step keeps the property exactly if it is no insertion into a table that has changed since
the count. -/
theorem oneBootstrap_step (hs : Sound w) (h : OneBootstrap w) (hstep : exec cfg w a = some w') :
    OneBootstrap w' ↔ Untouched w a := by
  have hlate := (hs.step hstep).late
  unfold exec at hstep
  cases hcall : a.call with
  | some i =>
    rw [hcall] at hstep
    obtain ⟨c, hi, hc⟩ := bind_eq_some_iff.1 hstep
    rcases stepCall_cases hc with ⟨phase, hcont, husers, hcreated, hcalls⟩ |
      ⟨j, id, username, passwordHash, users, rfl, hphase, hcreate, rfl⟩
    · refine iff_of_true ⟨by rw [hcreated]; exact h.once, hlate⟩ ?_
      cases a with
      | insert j id ok =>
        cases ok with
        | false => trivial
        | true =>
          cases hcall
          intro x hx username passwordHash hphase
          rw [hi] at hx
          cases hx
          exact .inr (refused_of_created_eq hphase hc hcreated)
      | arrive | count | check | hash | openSession | recordAudit | createUser => trivial
    · cases hcall
      constructor
      · intro h' x hx username' passwordHash' hphase'
        have hnil : w.created = [] := eq_nil_of_length_eq_zero
          (Nat.le_zero.1 (Nat.le_of_succ_le_succ h'.once))
        left
        by_contra hrows
        exact hs.pending c (mem_of_getElem? hi) (.inr (.inr ⟨_, _, hphase⟩)) hrows hnil
      · intro huntouched
        rcases huntouched c hi username passwordHash hphase with hrows | hnone
        · have hnil : w.created = [] := by
            by_contra hne
            exact hs.created hne hrows
          exact ⟨by show (i :: w.created).length ≤ 1; rw [hnil]; exact le_rfl, hlate⟩
        · rw [hcreate] at hnone
          cases hnone
  | none =>
    rw [hcall] at hstep
    cases a with
    | arrive request =>
      cases hstep
      exact iff_of_true ⟨h.once, hlate⟩ trivial
    | createUser user =>
      simp only at hstep
      split at hstep
      case isFalse => cases hstep
      case isTrue =>
        obtain ⟨users, -, rfl⟩ := map_eq_some_iff.1 hstep
        exact iff_of_true ⟨h.once, hlate⟩ trivial
    | count | check | hash | insert | openSession | recordAudit => cases hcall

/-- A run creates at most one administrator all along exactly if each of its insertions finds no
account, or its own name taken. -/
theorem oneBootstrap_along_iff {ls : List Action} (hinit : Initial w)
    (hrun : (bootstrapSystem cfg).Run w ls w') :
    (bootstrapSystem cfg).Along OneBootstrap w ls ↔
      ((bootstrapSystem cfg).restrict Untouched).Run w ls w' :=
  hrun.along_iff_restrict (deterministic_ofExec _ _)
    (fun s _ _ hs h hstep => oneBootstrap_step (sound_invariant cfg s hs) h hstep)
    (.init hinit)
    { once := by rw [hinit.2]; exact Nat.zero_le 1
      late := fun c hc => by rw [hinit.1] at hc; cases hc }

/-! ## Two requests -/

def bootstrapSecret : String := "0123456789abcdef0123456789abcdef"

/-- `digest`, of the secret. -/
def sampleDigest (text : String) : String :=
  ([ (bootstrapSecret, "3eb1bd439947eb762998e566ccc2e099c791118b2f40579cc4f7da2b5061b7f9") ].lookup text).getD ""

/-- A service whose bootstrap secret is its own. -/
def freshService : Config where
  digest := sampleDigest
  bootstrapSecret := .ok (some bootstrapSecret)
  analyzerToken := some "analyzer"
  notifierToken := some "notifier"
  eventsToken := some "events"
  operationsToken := some "operations"
  bootstrapUsername := none

def bootstrapBy (username : String) : Action :=
  .arrive ⟨some username, "correct horse", bootstrapSecret⟩

def nobody : World := ⟨Table.empty _, [], [], [], []⟩

/-- Both requests have their passwords hashed when the first of them inserts its account. -/
def sideBySide : List Action :=
  [ bootstrapBy "alice", bootstrapBy "bob", .count 0 true, .count 1 true, .check 0, .check 1
  , .hash 0 (some "$argon2id$a"), .hash 1 (some "$argon2id$b"), .insert 0 1 true
  , .insert 1 2 true ]

theorem two_administrators : ¬ ∀ cfg, (bootstrapSystem cfg).Invariant OneBootstrap := by
  intro h
  have hrun : (execAll (exec freshService) nobody sideBySide).map World.created =
      some [1, 0] := by decide +kernel
  obtain ⟨w, hw, hcreated⟩ := map_eq_some_iff.1 hrun
  have hreach : (bootstrapSystem freshService).Reachable w :=
    ⟨nobody, sideBySide, ⟨rfl, rfl⟩, run_of_execAll _ _ hw⟩
  have honce := (h freshService w hreach).once
  rw [hcreated] at honce
  exact absurd honce (by decide)

/-- One request after the other. -/
def inTurn : List Action :=
  [ bootstrapBy "alice", .count 0 true, .check 0, .hash 0 (some "$argon2id$a"), .insert 0 1 true
  , bootstrapBy "bob", .count 1 true ]

theorem oneBootstrap_along_iff_inTurn : ∃ w,
    ((bootstrapSystem freshService).Along OneBootstrap nobody inTurn ↔
      ((bootstrapSystem freshService).restrict Untouched).Run nobody inTurn w) ∧
    w.calls.map Call.phase = [.inserted ⟨1, "alice", "Administrator", "$argon2id$a"⟩,
      .answered (.error (conflict "bootstrap already completed"))] := by
  have hrun : (execAll (exec freshService) nobody inTurn).map
      (fun w => w.calls.map Call.phase) =
        some [.inserted ⟨1, "alice", "Administrator", "$argon2id$a"⟩,
          .answered (.error (conflict "bootstrap already completed"))] := by decide +kernel
  obtain ⟨w, hw, hphases⟩ := map_eq_some_iff.1 hrun
  exact ⟨w, oneBootstrap_along_iff ⟨rfl, rfl⟩ (run_of_execAll _ _ hw), hphases⟩

end Clawforge.AdminBootstrap
