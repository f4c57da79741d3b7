import ViewCompiler.Proofs.Result
import ViewCompiler.Service.Session
import Mathlib.Logic.Basic

/-!
# Sessions that refuse

A refusal is an error that blames the caller. Whether a session refuses can be read off its tree of
calls and replies; backends play no part in it.

* `Refuses`: a result is a refusal.
* `Session.NeverRefuses`: no replies lead the session to a refusal; `Session.neverRefuses_iff` says
  that this is so exactly if no backends do.
* `Session.RefusesFirst`: the session refuses before its first call, if it does.
* `Session.refusesFirst_iff`: **exactly such a session makes no call whenever it refuses**, whatever
  the backends are.
-/

namespace ViewCompiler

/-- Is the result an error that blames the caller? -/
def Refuses {α : Type} (result : Except QueryError α) : Prop :=
  ∃ error, result = .error error ∧ error.blame = .badRequest

namespace Refuses

variable {α β : Type}

@[simp] theorem not_ok (value : α) : ¬Refuses (.ok value : Except QueryError α) := by
  simp [Refuses]

@[simp] theorem error_iff {error : QueryError} :
    Refuses (.error error : Except QueryError α) ↔ error.blame = .badRequest := by
  simp [Refuses]

/-- Backends do not blame the caller. -/
theorem not_backend (failure : BackendError) :
    ¬Refuses (.error (.backend failure) : Except QueryError α) := by
  rw [error_iff, QueryError.blame]
  split <;> simp

theorem bind_iff {result : Except QueryError α} {next : α → Except QueryError β} :
    Refuses (result >>= next) ↔
      Refuses result ∨ ∃ value, result = .ok value ∧ Refuses (next value) := by
  cases result with
  | error error => simp [bind, Except.bind]
  | ok value => simp [bind, Except.bind]

theorem map_iff {result : Except QueryError α} {f : α → β} :
    Refuses (result.map f) ↔ Refuses result := by
  cases result <;> simp [Except.map]

theorem iff_of_blame {result : Except QueryError α}
    (h : ∀ error, result = .error error → error.blame = .badRequest) :
    Refuses result ↔ ¬∃ value, result = .ok value := by
  cases result with
  | error error => simpa using h error rfl
  | ok value => simp

end Refuses

namespace Session

section Run

variable {σ : Type} {backends : Backends σ} {state state' : σ} {call : Call}
  {next : call.Reply → Session}

theorem run_ask_error {failure : BackendError} (h : backends call state = (.error failure, state')) :
    (Session.ask call next).run backends state = ⟨.error (.backend failure), [call], state'⟩ := by
  rw [run, h]

theorem run_ask_ok {reply : call.Reply} (h : backends call state = (.ok reply, state')) :
    (Session.ask call next).run backends state =
      { (next reply).run backends state' with
        calls := call :: ((next reply).run backends state').calls } := by
  rw [run, h]

end Run

variable {α : Type} {session : Session} {result : Except QueryError α} {next : α → Session}

/-- Whatever the replies are, the session does not end with a refusal. -/
def NeverRefuses : Session → Prop
  | .done result => ¬Refuses result
  | .ask _ next => ∀ reply, (next reply).NeverRefuses

/-- If the session refuses, it does so before its first call. -/
def RefusesFirst : Session → Prop
  | .done _ => True
  | .ask call next => (Session.ask call next).NeverRefuses

/-! ### What backends can do -/

/-- Backends whose state is the rest of a session: they lead it to a refusal if replies can. -/
noncomputable def adversary : Backends Session
  | call, .ask asked next =>
    open Classical in
    if h : asked = call ∧ ∃ reply, ¬(next reply).NeverRefuses then
      (.ok (h.1 ▸ h.2.choose), next h.2.choose)
    else (.error default, .ask asked next)
  | _, .done result => (.error default, .done result)

theorem adversary_ask {call : Call} {next : call.Reply → Session}
    (h : ∃ reply, ¬(next reply).NeverRefuses) :
    adversary call (.ask call next) = (.ok h.choose, next h.choose) := by
  rw [adversary, dif_pos ⟨rfl, h⟩]

theorem refuses_of_adversary (h : ¬session.NeverRefuses) :
    Refuses (session.run adversary session).result := by
  induction session with
  | done result => exact not_not.1 h
  | ask call next ih =>
    have hreply : ∃ reply, ¬(next reply).NeverRefuses := not_forall.1 h
    rw [run, adversary_ask hreply]
    exact ih _ hreply.choose_spec

/-- A session never refuses exactly if no backends lead it to a refusal. -/
theorem neverRefuses_iff :
    session.NeverRefuses ↔ ∀ (σ : Type) (backends : Backends σ) (state : σ),
      ¬Refuses (session.run backends state).result := by
  refine ⟨fun h σ backends state => ?_, fun h => by_contra fun hnever =>
    h Session adversary session (refuses_of_adversary hnever)⟩
  induction session generalizing state with
  | done result => exact h
  | ask call next ih =>
    rw [run]
    cases hreply : backends call state with
    | mk reply state =>
      cases reply with
      | error failure => exact Refuses.not_backend failure
      | ok reply => exact ih reply (h reply) state

/-- **A session that refuses makes no call, whatever the backends are, exactly if it refuses before
its first call.** -/
theorem refusesFirst_iff :
    session.RefusesFirst ↔ ∀ (σ : Type) (backends : Backends σ) (state : σ),
      Refuses (session.run backends state).result → (session.run backends state).calls = [] := by
  cases session with
  | done result => exact ⟨fun _ _ _ _ _ => rfl, fun _ => trivial⟩
  | ask call next =>
    have hcalls {σ : Type} (backends : Backends σ) (state : σ) :
        ((Session.ask call next).run backends state).calls ≠ [] := by
      rw [run]
      split <;> simp
    refine neverRefuses_iff.trans ⟨fun h σ backends state hrefuses => ?_,
      fun h σ backends state hrefuses => hcalls backends state (h σ backends state hrefuses)⟩
    exact absurd hrefuses (h σ backends state)

/-! ### Attempts -/

theorem neverRefuses_attempt :
    (attempt result next).NeverRefuses ↔
      ¬Refuses result ∧ ∀ value, result = .ok value → (next value).NeverRefuses := by
  cases result with
  | error error => simp [attempt, NeverRefuses]
  | ok value => simp [attempt]

theorem neverRefuses_internal {ε : Type} {found : Except ε α} {wrap : ε → QueryError}
    (hwrap : ∀ cause, (wrap cause).blame = .internal) (h : ∀ value, (next value).NeverRefuses) :
    (attempt (found.mapError wrap) next).NeverRefuses := by
  cases found with
  | error cause =>
    have hblame : ¬Refuses (.error (wrap cause) : Except QueryError Page) := by simp [hwrap cause]
    exact hblame
  | ok value => exact h value

theorem refusesFirst_attempt :
    (attempt result next).RefusesFirst ↔
      ∀ value, result = .ok value → (next value).RefusesFirst := by
  cases result with
  | error error => simp [attempt, RefusesFirst]
  | ok value => simp [attempt]

end Session

end ViewCompiler
