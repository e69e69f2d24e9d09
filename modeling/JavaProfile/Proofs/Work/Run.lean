import Mathlib.Tactic.Common
import JavaProfile.Work.Session

/-!
Running work from a session: its result, and the session that it leaves.
-/

namespace JavaProfile

variable {τ α β : Type}

namespace Outcome

theorem ok_bind (a : α) (f : α → Outcome β) : ok a >>= f = f a :=
  rfl

theorem ofExcept_ok {ε : Type} (failure : ε → Failure) (a : α) :
    ofExcept failure (.ok a) = ok a :=
  rfl

theorem bind_result (x : Outcome α) (f : α → Outcome β) :
    (x >>= f).result = x.result >>= fun a => (f a).result := by
  change (bind x f).result = _
  rw [bind]
  cases x.result <;> rfl

theorem ofExcept_result {ε : Type} (failure : ε → Failure) (x : Except ε α) :
    (ofExcept failure x).result = x.mapError failure := by
  cases x <;> rfl

end Outcome

namespace Session

variable {s s' s'' : Session τ}

/-- Nothing of a session has moved on but its log and its stopwatch. -/
structure Quiet (s s' : Session τ) : Prop where
  tree : s'.tree = s.tree
  clock : s'.clock = s.clock
  settings : s'.settings = s.settings
  terminal : s'.terminal = s.terminal

theorem Quiet.refl (s : Session τ) : s.Quiet s :=
  ⟨rfl, rfl, rfl, rfl⟩

theorem Quiet.trans (h : s.Quiet s') (h' : s'.Quiet s'') : s.Quiet s'' :=
  ⟨h'.tree.trans h.tree, h'.clock.trans h.clock, h'.settings.trans h.settings,
    h'.terminal.trans h.terminal⟩

theorem Quiet.say (s : Session τ) (lines : List LogLine) : s.Quiet (s.say lines) :=
  ⟨rfl, rfl, rfl, rfl⟩

theorem Quiet.now (h : s.Quiet s') : s'.now = s.now := by
  rw [Session.now, h.clock, Session.now]

theorem Quiet.announces (h : s.Quiet s') : s'.announces = s.announces := by
  rw [Session.announces, h.settings, h.terminal, Session.announces]

end Session

namespace Work

def runs (w : Work τ α) (s : Session τ) : Except Failure α × Session τ :=
  (ExceptT.run w).run s

@[simp]
theorem runs_pure (a : α) (s : Session τ) : runs (pure a : Work τ α) s = (.ok a, s) :=
  rfl

@[simp]
theorem runs_throw (e : Failure) (s : Session τ) :
    runs (throw e : Work τ α) s = (.error e, s) :=
  rfl

@[simp]
theorem runs_get (s : Session τ) : runs (get : Work τ (Session τ)) s = (.ok s, s) :=
  rfl

theorem runs_bind (w : Work τ α) (f : α → Work τ β) (s : Session τ) :
    runs (w >>= f) s =
      match runs w s with
      | (.ok a, s') => runs (f a) s'
      | (.error e, s') => (.error e, s') := by
  change ExceptT.bindCont f (runs w s).1 (runs w s).2 = _
  rcases runs w s with ⟨_ | _, s'⟩ <;> rfl

theorem runs_bind_of_ok {w : Work τ α} {a : α} {s s' : Session τ} (h : runs w s = (.ok a, s'))
    (f : α → Work τ β) : runs (w >>= f) s = runs (f a) s' := by
  rw [runs_bind, h]

theorem runs_bind_of_error {w : Work τ α} {e : Failure} {s s' : Session τ}
    (h : runs w s = (.error e, s')) (f : α → Work τ β) : runs (w >>= f) s = (.error e, s') := by
  rw [runs_bind, h]

@[simp]
theorem runs_say (level : LogLevel) (text : String) (s : Session τ) :
    runs (say level text : Work τ Unit) s = (.ok (), s.say [⟨level, text⟩]) :=
  rfl

@[simp]
theorem runs_change (f : Session τ → τ × Except TreeError Unit) (s : Session τ) :
    runs (change f) s = (.ok (f s).2, { s with tree := (f s).1 }) :=
  rfl

@[simp]
theorem runs_ofExcept (x : Except Failure α) (s : Session τ) : runs (ofExcept x) s = (x, s) :=
  rfl

theorem runs_onTree (f : τ → Except TreeError α) (s : Session τ) :
    runs (onTree f) s = ((f s.tree).mapError Failure.tree, s) :=
  rfl

theorem runs_ofOutcome (x : Session τ → Outcome α) (s : Session τ) :
    runs (ofOutcome x) s = ((x s).result, s.say (x s).log) := by
  have hset : runs (set (s.say (x s).log) : Work τ PUnit) s = (.ok (), s.say (x s).log) := rfl
  rw [ofOutcome, runs_bind_of_ok (runs_get s), runs_bind_of_ok hset]
  cases (x s).result <;> rfl

theorem runs_tryCatch (w : Work τ α) (handle : Failure → Work τ α) (s : Session τ) :
    runs (tryCatch w handle) s =
      match runs w s with
      | (.ok a, s') => (.ok a, s')
      | (.error e, s') => runs (handle e) s' := by
  have hrun : StateT.run (ExceptT.run w) s = runs w s := rfl
  rw [runs, ExceptT.run_tryCatch, StateT.run_bind, hrun]
  rcases runs w s with ⟨_ | _, s'⟩ <;> rfl

theorem runs_attempt (w : Work τ α) (s : Session τ) :
    runs (attempt w) s = (.ok (runs w s).1, (runs w s).2) := by
  rw [attempt, runs_tryCatch, runs_bind]
  rcases runs w s with ⟨_ | _, s'⟩ <;> rfl

theorem readStopwatch_quiet (s : Session τ) :
    ∃ x s', runs readStopwatch s = (.ok x, s') ∧ s.Quiet s' :=
  ⟨_, _, rfl, rfl, rfl, rfl, rfl⟩

theorem timed_runs (level : LogLevel) (operation : String) (items : List (String × String))
    (work : Work τ α) (s : Session τ) :
    ∃ s₀ seconds s', s.Quiet s₀ ∧ (runs work s₀).2.Quiet s' ∧
      runs (timed level operation items work) s =
        ((runs work s₀).1.map fun a => (a, seconds), s') := by
  obtain ⟨start, s₀, hstart, hquiet⟩ :=
    readStopwatch_quiet (s.say [⟨level, "▶ Starting " ++ operation ++ details items⟩])
  obtain ⟨stop, s₁, hstop, hquiet'⟩ := readStopwatch_quiet (runs work s₀).2
  rw [timed, runs_bind, runs_say]
  dsimp only
  rw [runs_bind_of_ok hstart, runs_bind, runs_attempt]
  dsimp only
  rw [runs_bind_of_ok hstop]
  have hbefore : s.Quiet s₀ := (Session.Quiet.say s _).trans hquiet
  have hafter (lines : List LogLine) : (runs work s₀).2.Quiet (s₁.say lines) :=
    hquiet'.trans (Session.Quiet.say s₁ lines)
  cases hresult : (runs work s₀).1 with
  | ok a =>
    have hmap : (runs work s₀).1.map (fun a => (a, stop - start)) = .ok (a, stop - start) := by
      rw [hresult]
      rfl
    exact ⟨s₀, stop - start, _, hbefore, hafter _, (Prod.ext hmap.symm rfl)⟩
  | error e =>
    have hmap : (runs work s₀).1.map (fun a => (a, stop - start)) = .error e := by
      rw [hresult]
      rfl
    exact ⟨s₀, stop - start, _, hbefore, hafter _, (Prod.ext hmap.symm rfl)⟩

end Work

end JavaProfile
