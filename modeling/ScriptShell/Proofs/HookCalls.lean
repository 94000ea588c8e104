import ScriptShell.Proofs.Runs
import ScriptShell.Session.Hooks

/-! # Calls of hooks

An event of the shell looks its function up in the registry that the session has at that moment, so
what the event does is fixed by the one entry it finds (`SessionRef.run_invokeHook`). -/

namespace ScriptShell

namespace Handler

variable {α β : Type} {h : Handler}

/-- A program of a session that begins with one operation. -/
theorem run_session_ask_bind (o : Operation) (f : o.Answer → SessionProgram α) (w : World) :
    h.run (SessionProgram.ask o >>= f).run w = h.run (f (w.answer o).1).run (w.answer o).2 := rfl

/-- What comes first may be replaced by what runs alike. -/
theorem run_session_bind_congr {p q : SessionProgram α} {w : World}
    (hpq : h.run p.run w = h.run q.run w) (f : α → SessionProgram β) :
    h.run (p >>= f).run w = h.run (q >>= f).run w := by
  show h.run (p.run.bind _) w = h.run (q.run.bind _) w
  rw [run_bind, run_bind, hpq]

/-- What comes first ends with a value, with which the rest goes on. -/
theorem run_session_bind_of_ok {p : SessionProgram α} {w w' : World} {a : α}
    (hp : h.run p.run w = (.value (.ok a), w')) (f : α → SessionProgram β) :
    h.run (p >>= f).run w = h.run (f a).run w' := by
  show h.run (p.run.bind _) w = _
  rw [run_bind, hp]
  rfl

/-- What comes first ends with an error, and so does the whole. -/
theorem run_session_bind_of_error {p : SessionProgram α} {w w' : World} {e : BridgeError}
    (hp : h.run p.run w = (.value (.error e), w')) (f : α → SessionProgram β) :
    h.run (p >>= f).run w = (.value (.error e), w') := by
  show h.run (p.run.bind _) w = _
  rw [run_bind, hp]
  rfl

end Handler

/-- An event calls the function that the registry of the session has for it when the event
happens. -/
theorem SessionRef.run_invokeHook {h : Handler} {w : World} {s : SessionRef} (context : Context)
    (point : HookPoint) (args : List HostValue) :
    h.run (s.invokeHook context point args).run w =
      h.run (((w.host.registry (w.session s).hooks).get? point).elim (pure none) fun f =>
        some <$> s.call context f args : SessionProgram (Option (List HostValue))).run w := by
  rw [invokeHook, Handler.run_session_ask_bind, Handler.run_session_ask_bind,
    show w.answer .host = (w.host, w) from rfl,
    show w.answer (.session s) = (w.session s, w) from rfl]
  dsimp only
  cases (w.host.registry (w.session s).hooks).get? point <;> rfl

end ScriptShell
