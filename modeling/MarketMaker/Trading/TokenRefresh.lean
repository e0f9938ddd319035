import Mathlib.Order.Nat
import MarketMaker.Base.Run

/-!
# Token refresh

`AuthManager` of `src/trading/auth.rs` as far as it concerns the token's lifetime, and the three
places that watch it: the periodic tick of `main.rs` (below two hours it forces the order socket
to reconnect), `ws_authenticate` of the order socket (authenticates when the token has expired)
and `ensure_valid_token` of the REST calls (authenticates below one hour).

## Protocol

* The clock moves at any moment; a reply to `authenticate` is a new token or a failure.
* The tick only spawns `force_reconnect`; the task runs later.  It gives up the tick's check when
  the auth mutex is held elsewhere (`lockFree = false`).
* The connection loop stores `connected` before it logs in, and leaves a closed connection in a
  step of its own.

## Results

* `forced_reconnects_renew` — in a run in which every login finds the token expired or with two
  hours left, and no tick forces a reconnect while an earlier one is still under way, a successful
  `authenticate` lies between any two forced reconnects.
* `same_token_forces_twice` — a login with less than two hours left keeps the token, and the next
  tick forces the socket again.
-/

set_option autoImplicit false

namespace MarketMaker

/-! ## `AuthManager` -/

/-- `AuthToken`; `expires_at` is in Unix seconds. -/
structure AuthToken where
  token : String
  expiresAt : Nat
  deriving DecidableEq

namespace AuthToken

/-- `AuthToken::is_expired`. -/
def isExpired (t : AuthToken) (now : Nat) : Bool := decide (t.expiresAt ≤ now)

/-- `AuthToken::remaining_secs`. -/
def remainingSecs (t : AuthToken) (now : Nat) : Nat := t.expiresAt - now

end AuthToken

/-- The token and `auth_count`, the number of successful authentications. -/
structure AuthManager where
  token : Option AuthToken
  authCount : Nat
  deriving DecidableEq

namespace AuthManager

/-- `expires_seconds`: one week. -/
def EXPIRES_SECONDS : Nat := 7 * 24 * 60 * 60

/-- `MIN_TOKEN_VALIDITY_SECS`: one hour. -/
def MIN_TOKEN_VALIDITY_SECS : Nat := 3600

/-- `is_authenticated`. -/
def isAuthenticated (a : AuthManager) (now : Nat) : Bool := a.token.any fun t => !t.isExpired now

/-- `token_remaining_secs`: `0` if expired or absent. -/
def tokenRemainingSecs (a : AuthManager) (now : Nat) : Nat :=
  (a.token.map (·.remainingSecs now)).getD 0

/-- `authenticate`, with the exchange's reply: a token, or a failure that leaves the old one. -/
def authenticate (a : AuthManager) (now : Nat) : Option String → Bool × AuthManager
  | some token => (true, ⟨some ⟨token, now + EXPIRES_SECONDS⟩, a.authCount + 1⟩)
  | none => (false, a)

/-- `ensure_valid_token`. -/
def ensureValidToken (a : AuthManager) (now : Nat) (reply : Option String) : Bool × AuthManager :=
  if (a.token.map fun t => decide (t.remainingSecs now < MIN_TOKEN_VALIDITY_SECS)).getD true then
    a.authenticate now reply
  else (true, a)

/-- `if !auth.is_authenticated() { auth.authenticate().await?; }`. -/
def authenticateIfExpired (a : AuthManager) (now : Nat) (reply : Option String) : Bool × AuthManager :=
  if a.isAuthenticated now then (true, a) else a.authenticate now reply

/-- A token is valid exactly while seconds remain. -/
theorem isAuthenticated_iff (a : AuthManager) (now : Nat) :
    a.isAuthenticated now = true ↔ 0 < a.tokenRemainingSecs now := by
  unfold isAuthenticated tokenRemainingSecs AuthToken.isExpired AuthToken.remainingSecs
  cases a.token with
  | none => simp
  | some t =>
    simp only [Option.any_some, Bool.not_eq_true', decide_eq_false_iff_not, Option.map_some,
      Option.getD_some]
    omega

/-- Either nothing changed or the authentication succeeded. -/
theorem authenticate_cases (a : AuthManager) (now : Nat) (reply : Option String) :
    ((a.authenticate now reply).1 = false ∧ (a.authenticate now reply).2 = a) ∨
    ((a.authenticate now reply).1 = true ∧ (a.authenticate now reply).2.authCount = a.authCount + 1) := by
  cases reply with
  | none => exact Or.inl ⟨rfl, rfl⟩
  | some token => exact Or.inr ⟨rfl, rfl⟩

end AuthManager

/-! ## The socket, the tick and the REST calls -/

/-- Where the connection loop is: no connection, a connection that has not logged in, or one
    whose login is through. -/
inductive Link where
  | offline
  | opened
  | live
  deriving DecidableEq

structure TokenSystem where
  now : Nat
  auth : AuthManager
  link : Link
  connected : Bool
  reconnectTasks : Nat
  deriving DecidableEq

namespace TokenSystem

inductive Event where
  | elapse (secs : Nat)
  | tick (lockFree : Bool)
  | forceReconnect
  | connect
  | login (reply : Option String) (accepted : Bool)
  | drop
  | rest (reply : Option String)
  | restUnauthorized (reply : Option String)

/-- Before the first connection, with a token obtained at startup. -/
def start (now : Nat) (token : AuthToken) : TokenSystem := ⟨now, ⟨some token, 1⟩, .offline, false, 0⟩

/-- `auth_guard.token_remaining_secs()`. -/
def remaining (s : TokenSystem) : Nat := s.auth.tokenRemainingSecs s.now

/-- The proactive refresh threshold of the tick: two hours. -/
def REFRESH_BELOW_SECS : Nat := 7200

/-- The tick forces a reconnect. -/
def forces (s : TokenSystem) (lockFree : Bool) : Bool :=
  lockFree && decide (0 < s.remaining) && decide (s.remaining < REFRESH_BELOW_SECS) && s.connected

/-- The connection is gone. -/
def dropped (s : TokenSystem) : TokenSystem := { s with link := .offline, connected := false }

def step (s : TokenSystem) : Event → Option TokenSystem
  | .elapse secs => some { s with now := s.now + secs }
  | .tick lockFree =>
    some (if s.forces lockFree then { s with reconnectTasks := s.reconnectTasks + 1 } else s)
  | .forceReconnect =>
    if 0 < s.reconnectTasks then
      some { s with reconnectTasks := s.reconnectTasks - 1, connected := false }
    else none
  | .connect => if s.link = .offline then some { s with link := .opened, connected := true } else none
  | .login reply accepted =>
    if s.link = .opened then
      let (ok, auth) := s.auth.authenticateIfExpired s.now reply
      let s := { s with auth := auth }
      some (if ok && accepted then { s with link := .live } else s.dropped)
    else none
  | .drop => if s.link = .offline then none else some s.dropped
  | .rest reply => some { s with auth := (s.auth.ensureValidToken s.now reply).2 }
  | .restUnauthorized reply => some { s with auth := (s.auth.authenticate s.now reply).2 }

/-- A login finds the token expired (and authenticates) or with two hours left, and a tick forces
    a reconnect only when no earlier one is outstanding and the connection has logged in. -/
def Orderly (s : TokenSystem) : Event → Prop
  | .tick lockFree => s.forces lockFree = true → s.reconnectTasks = 0 ∧ s.link = .live
  | .login _ _ => s.remaining = 0 ∨ REFRESH_BELOW_SECS ≤ s.remaining
  | _ => True

instance (s : TokenSystem) : ∀ e, Decidable (s.Orderly e)
  | .tick _ => inferInstanceAs (Decidable (_ → _))
  | .login _ _ => inferInstanceAs (Decidable (_ ∨ _))
  | .elapse _ | .forceReconnect | .connect | .drop | .rest _ | .restUnauthorized _ => .isTrue trivial

/-! ## Between two forced reconnects -/

/-- Since a forced reconnect that saw `count` authentications: either there has been another one,
    or the token still has less than two hours and a forced tick would not be orderly. -/
structure SinceForced (count : Nat) (s : TokenSystem) : Prop where
  count_le : count ≤ s.auth.authCount
  waiting : s.auth.authCount = count → s.remaining < REFRESH_BELOW_SECS ∧
    (0 < s.reconnectTasks ∨ s.connected = false ∨ s.link = .opened)

theorem sinceForced_tick {s s' : TokenSystem} {lockFree : Bool} (hforces : s.forces lockFree = true)
    (h : s.step (.tick lockFree) = some s') : SinceForced s.auth.authCount s' := by
  simp only [step, hforces, if_true, Option.some.injEq] at h
  subst h
  simp only [forces, Bool.and_eq_true, decide_eq_true_eq] at hforces
  exact ⟨le_rfl, fun _ => ⟨hforces.1.2, Or.inl (Nat.succ_pos _)⟩⟩

/-- An authentication after the forced reconnect settles the matter. -/
theorem SinceForced.authenticated {count : Nat} {s s' : TokenSystem} (h : SinceForced count s)
    (hcount : s'.auth.authCount = s.auth.authCount + 1) : SinceForced count s' := by
  have := h.count_le
  exact ⟨by omega, fun heq => by omega⟩

theorem SinceForced.step {count : Nat} {s s' : TokenSystem} {e : Event} (h : SinceForced count s)
    (hok : s.Orderly e) (hstep : s.step e = some s') : SinceForced count s' := by
  obtain ⟨hle, hwait⟩ := h
  cases e with
  | elapse secs =>
    cases hstep
    refine ⟨hle, fun heq => ⟨?_, (hwait heq).2⟩⟩
    refine lt_of_le_of_lt ?_ (hwait heq).1
    unfold remaining AuthManager.tokenRemainingSecs AuthToken.remainingSecs
    cases s.auth.token with
    | none => exact le_rfl
    | some t => simp only [Option.map_some, Option.getD_some]; omega
  | tick lockFree =>
    cases hstep
    split
    · exact ⟨hle, fun heq => ⟨(hwait heq).1, Or.inl (Nat.succ_pos _)⟩⟩
    · exact ⟨hle, hwait⟩
  | forceReconnect =>
    simp only [TokenSystem.step] at hstep
    split at hstep
    · cases hstep
      exact ⟨hle, fun heq => ⟨(hwait heq).1, Or.inr (Or.inl rfl)⟩⟩
    · cases hstep
  | connect =>
    simp only [TokenSystem.step] at hstep
    split at hstep
    · cases hstep
      exact ⟨hle, fun heq => ⟨(hwait heq).1, Or.inr (Or.inr rfl)⟩⟩
    · cases hstep
  | login reply accepted =>
    simp only [TokenSystem.step, AuthManager.authenticateIfExpired] at hstep
    split at hstep
    · split at hstep
      · -- the token is still valid: by the condition it has two hours left, so it is a new one
        rename_i hvalid
        have hpos := (s.auth.isAuthenticated_iff s.now).mp hvalid
        have hlarge : REFRESH_BELOW_SECS ≤ s.remaining := by
          rcases hok with hzero | hlarge
          · unfold remaining at hzero; omega
          · exact hlarge
        have hnew : s.auth.authCount ≠ count := fun heq => by
          have := (hwait heq).1
          omega
        cases hstep
        split <;> exact ⟨hle, fun heq => absurd heq hnew⟩
      · rcases s.auth.authenticate_cases s.now reply with ⟨hfail, hsame⟩ | ⟨_, hcount⟩
        · simp only [hfail, hsame, Bool.false_and, Bool.false_eq_true, if_false, Option.some.injEq] at hstep
          subst hstep
          exact ⟨hle, fun heq => ⟨(hwait heq).1, Or.inr (Or.inl rfl)⟩⟩
        · refine SinceForced.authenticated ⟨hle, hwait⟩ ?_
          cases hstep
          split <;> exact hcount
    · cases hstep
  | drop =>
    simp only [TokenSystem.step] at hstep
    split at hstep
    · cases hstep
    · cases hstep
      exact ⟨hle, fun heq => ⟨(hwait heq).1, Or.inr (Or.inl rfl)⟩⟩
  | rest reply =>
    cases hstep
    unfold AuthManager.ensureValidToken
    split
    · rcases s.auth.authenticate_cases s.now reply with ⟨_, hsame⟩ | ⟨_, hcount⟩
      · rw [hsame]; exact ⟨hle, hwait⟩
      · exact SinceForced.authenticated ⟨hle, hwait⟩ hcount
    · exact ⟨hle, hwait⟩
  | restUnauthorized reply =>
    cases hstep
    rcases s.auth.authenticate_cases s.now reply with ⟨_, hsame⟩ | ⟨_, hcount⟩
    · rw [hsame]; exact ⟨hle, hwait⟩
    · exact SinceForced.authenticated ⟨hle, hwait⟩ hcount

/-- An orderly tick forces a reconnect only after another authentication. -/
theorem SinceForced.lt_of_forces {count : Nat} {s : TokenSystem} {lockFree : Bool}
    (h : SinceForced count s) (hok : s.Orderly (.tick lockFree)) (hforces : s.forces lockFree = true) :
    count < s.auth.authCount := by
  refine lt_of_le_of_ne h.count_le fun heq => ?_
  obtain ⟨htasks, hlive⟩ := hok hforces
  simp only [forces, Bool.and_eq_true] at hforces
  rcases (h.waiting heq.symm).2 with hpos | hdown | hopened
  · omega
  · rw [hdown] at hforces; cases hforces.2
  · rw [hlive] at hopened; cases hopened

/-- **Forced reconnects renew the token.**  Along every orderly run, any two forced reconnects are
    separated by a successful `authenticate`. -/
theorem forced_reconnects_renew (now : Nat) (token : AuthToken) (pre mid : List Event)
    (first second : Bool) (s₁ s₂ : TokenSystem)
    (horderly : Runs.Along step Orderly (start now token)
      (pre ++ .tick first :: mid ++ [.tick second]))
    (hpre : Runs.exec step (start now token) pre = some s₁) (hfirst : s₁.forces first = true)
    (hmid : Runs.exec step s₁ (.tick first :: mid) = some s₂) (hsecond : s₂.forces second = true) :
    s₁.auth.authCount < s₂.auth.authCount := by
  rw [List.append_assoc] at horderly
  obtain ⟨_, hafter⟩ := Runs.along_append horderly hpre
  obtain ⟨hmidOk, hlast⟩ := Runs.along_append hafter hmid
  obtain ⟨t, ht, hrest⟩ := Runs.exec_cons_some hmid
  obtain ⟨_, hmidOk⟩ := Runs.along_cons hmidOk ht
  have hsince := Runs.exec_invariant_of (SinceForced s₁.auth.authCount) Orderly
    (fun _ _ _ h hok hstep => h.step hok hstep) (sinceForced_tick hfirst ht) hmidOk hrest
  exact hsince.lt_of_forces hlast.1 hsecond

/-- A connection until its token has 7199 seconds left. -/
def untilForced : List Event := [.connect, .login none true, .elapse 597601]

/-- The forced reconnect takes an hour, in which a REST call renews the token. -/
def renewed : List Event :=
  [.forceReconnect, .drop, .elapse 3600, .rest (some "b"), .connect, .login none true, .elapse 597601]

/-- The forced reconnect is through after a second. -/
def reconnected : List Event := [.forceReconnect, .drop, .elapse 1, .connect, .login none true]

theorem forced_reconnects_renew_hour :
    ∃ s₁ s₂, Runs.exec step (start 0 ⟨"a", 604800⟩) untilForced = some s₁ ∧
      Runs.exec step s₁ (.tick true :: renewed) = some s₂ ∧ s₁.auth.authCount < s₂.auth.authCount :=
  ⟨_, _, rfl, rfl, forced_reconnects_renew 0 ⟨"a", 604800⟩ untilForced renewed true true _ _
    (by decide) rfl (by decide) rfl (by decide)⟩

/-- **One token forces twice.**  The login a second after the forced reconnect finds the same
    token with 7198 seconds left and keeps it; the next tick forces the socket again. -/
theorem same_token_forces_twice :
    ∃ s₁ s₂, Runs.exec step (start 0 ⟨"a", 604800⟩) untilForced = some s₁ ∧ s₁.forces true = true ∧
      Runs.exec step s₁ (.tick true :: reconnected) = some s₂ ∧ s₂.forces true = true ∧
      s₂.auth = s₁.auth ∧ s₂.remaining = 7198 :=
  ⟨_, _, rfl, by decide, rfl, by decide, rfl, by decide⟩

end TokenSystem

end MarketMaker
