import ScriptShell.Proofs.CapabilityFields
import ScriptShell.Proofs.DelegatedTables
import ScriptShell.Proofs.HookCalls

/-! # Key bindings over time

A key is bound in two places: the keymap has its action, and the registry of the session has the
function if the action is to run one.  `HoldsKeys` says that the two together hold one binding for
each name, in the one spelling of names, so the action of a key with a function is always the one
that runs functions.  Both ways to bind a key, an assignment to the key table and a call of
`bindkey`, end in `HostState.bindKey`, which keeps the two in step or changes neither
(`HoldsKeys.bindKey_cases`).  `BindingHistory.reaches` is the induction over all bindings that are
made, and `World.key_bindings` says what guests read and what pressing a key does at each point.
-/

namespace ScriptShell

open Guest

/-! ## Bindings -/

/-- What a key is bound to. -/
inductive KeyBinding where
  /-- A function of the guest. -/
  | script (f : GuestFunction)
  /-- An action of the line editor. -/
  | action (name : String)
  deriving DecidableEq

namespace KeyBinding

/-- The action in the keymap. -/
def marker : KeyBinding → String
  | script _ => scriptAction
  | action name => name

/-- The function in the registry. -/
def function? : KeyBinding → Option GuestFunction
  | script f => some f
  | action _ => none

/-- What a guest reads. -/
def form : KeyBinding → Value
  | script f => .func f
  | action name => .text name

/-- The binding that a host value asks for.  Functions, names of actions and `nil` ask for one, and
everything else is rejected. -/
def ofHost? : HostValue → Option (Option KeyBinding)
  | .callable f => some (some (script f))
  | .text name => if name.isEmpty then none else some (some (action name))
  | .nil => some none
  | _ => none

/-- The binding that a guest value asks for. -/
def ofGuest? (h : Heap) (v : Value) : Option (Option KeyBinding) :=
  (Marshal.toHost h v).toOption.bind ofHost?

end KeyBinding

/-- What the keys are bound to, by the one spelling of their names. -/
abbrev KeyBindings := String → Option KeyBinding

namespace KeyBindings

/-- What there is before a session has bound any keys: the actions of the keymap. -/
def start (w : World) : KeyBindings := fun name => (w.host.keymap.action? name).map .action

/-- What there is after a binding was asked for. -/
def bind (last : KeyBindings) (h : Heap) (key : String) (v : Value) : KeyBindings :=
  match KeyBinding.ofGuest? h v with
  | some b? => Function.update last (normalizeKey key) b?
  | none => last

end KeyBindings

/-- What pressing a key does that is bound to this. -/
def SessionRef.pressed (s : SessionRef) (context : Context) (line : String) :
    Option KeyBinding → SessionProgram (Option HostValue)
  | some (.script f) => do return some ((← s.call context f [.text line]).headD .nil)
  | _ => return none

/-! ## The two stores -/

variable {host : HostState} {hooks : RegistryRef} {last : KeyBindings}

/-- The keymap and a registry hold the bindings together. -/
structure HoldsKeys (host : HostState) (hooks : RegistryRef) (last : KeyBindings) : Prop where
  /-- The registry exists. -/
  registry_lt : hooks.id < host.registries.size
  /-- The keymap holds the actions. -/
  action : ∀ name, host.keymap.action? name = (last name).map KeyBinding.marker
  /-- The registry holds the functions. -/
  function : ∀ name,
    (host.registry hooks).get? (.key name) = (last name).bind KeyBinding.function?

namespace HoldsKeys

/-- Two stores that agree on a binding for one name, and are otherwise as before. -/
theorem update (hs : HoldsKeys host hooks last) {name : String} {b? : Option KeyBinding}
    {keymap : Keymap} {registry : HookRegistry}
    (haction : keymap.action? name = b?.map KeyBinding.marker)
    (hactions : ∀ name', name' ≠ name → keymap.action? name' = host.keymap.action? name')
    (hget : ∀ point, registry.get? point =
      if point = .key name then b?.bind KeyBinding.function?
      else (host.registry hooks).get? point) :
    HoldsKeys ({ host with keymap := keymap }.setRegistry hooks registry) hooks
      (Function.update last name b?) where
  registry_lt := by
    show hooks.id < (host.registries.setIfInBounds hooks.id registry).size
    rw [Array.size_setIfInBounds]
    exact hs.registry_lt
  action name' := by
    show keymap.action? name' = _
    by_cases hn : name' = name
    · rw [hn, haction, Function.update_self]
    · rw [hactions name' hn, hs.action, Function.update_of_ne hn]
  function name' := by
    show ((host.registries.setIfInBounds hooks.id registry)[hooks.id]?.getD {}).get? _ = _
    rw [Array.getElem?_setIfInBounds_self_of_lt hs.registry_lt, Option.getD_some, hget]
    by_cases hn : name' = name
    · rw [hn, if_pos rfl, Function.update_self]
    · rw [if_neg fun he => hn (HookPoint.key.inj he), Function.update_of_ne hn, hs.function]

/-- Binding a key sets both stores or neither. -/
theorem bindKey_cases (hs : HoldsKeys host hooks last) (key : String) (x : HostValue) :
    (∃ b? host', KeyBinding.ofHost? x = some b? ∧ host.bindKey hooks key x = .ok host' ∧
      HoldsKeys host' hooks (Function.update last (normalizeKey key) b?)) ∨
    (KeyBinding.ofHost? x = none ∧ ∃ e, host.bindKey hooks key x = .error e) := by
  have hother (action : String) (name' : String) (hn : name' ≠ normalizeKey key) :=
    TextMap.get?_insert_of_ne host.keymap.bindings (Ne.symm hn) action
  cases x with
  | callable f =>
    refine .inl ⟨some (.script f), _, rfl, rfl, hs.update ?_ (hother scriptAction) fun point => ?_⟩
    · exact TextMap.get?_insert_self ..
    · exact HookRegistry.get?_register ..
  | text action =>
    rw [KeyBinding.ofHost?, HostState.bindKey, ScriptShell.bindKey, Keymap.bindAction]
    by_cases hempty : action.isEmpty = true
    · rw [if_pos hempty, if_pos hempty]
      exact .inr ⟨rfl, _, rfl⟩
    · rw [if_neg hempty, if_neg hempty]
      refine .inl ⟨some (.action action), _, rfl, rfl, hs.update ?_ (hother action) fun point => ?_⟩
      · exact TextMap.get?_insert_self ..
      · exact HookRegistry.get?_unregister ..
  | nil =>
    refine .inl ⟨none, _, rfl, rfl, hs.update ?_ (fun name' hn => ?_) fun point => ?_⟩
    · exact TextMap.get?_erase_self ..
    · exact TextMap.get?_erase_of_ne _ (Ne.symm hn)
    · exact HookRegistry.get?_unregister ..
  | _ => exact .inr ⟨rfl, _, rfl⟩

/-- What is bound to a key, in any spelling. -/
theorem boundTo?_eq (hs : HoldsKeys host hooks last) (key : String) :
    boundTo? host.keymap (host.registry hooks) key =
      (last (normalizeKey key)).map fun
        | .script f => .callable f
        | .action name => .text name := by
  rw [boundTo?, hs.function, hs.action]
  cases last (normalizeKey key) with
  | none => rfl
  | some b => cases b <;> rfl

/-- A key with a function has the action that runs functions. -/
theorem action_of_function (hs : HoldsKeys host hooks last) {name : String} {f : GuestFunction}
    (hf : (host.registry hooks).get? (.key name) = some f) :
    host.keymap.action? name = some scriptAction := by
  rw [hs.function] at hf
  rw [hs.action]
  cases hl : last name with
  | none =>
    rw [hl] at hf
    cases hf
  | some b =>
    cases b with
    | script g => rfl
    | action name' =>
      rw [hl] at hf
      cases hf

end HoldsKeys

/-! ## The ways to bind a key -/

variable {w w' : World} {s : SessionRef} {c : TableRef} {g : GuestFunction} {v : Value}

/-- The key table and the function for binding keys lead to the two stores, and so does the session
when a key is pressed. -/
structure ReachesKeys (s : SessionRef) (hooks : RegistryRef) (c : TableRef) (g : GuestFunction)
    (w : World) (last : KeyBindings) : Prop where
  /-- The table leads to the keys. -/
  offers : w.heap.Offers c (.keys hooks)
  /-- It holds no names of keys itself. -/
  storage : ∀ key, (w.heap.table c).get (.text key) = .nil
  /-- The function binds keys. -/
  function : ∃ r, w.heap.function? g = some ⟨r, .bindKey hooks⟩
  /-- The session has the registry. -/
  session : (w.session s).hooks = hooks
  /-- The stores hold the bindings. -/
  stores : HoldsKeys w.host hooks last

/-- A stretch in which other things happen: the keys stay bound as they are, and the ways there
stay. -/
structure KeysApart (s : SessionRef) (hooks : RegistryRef) (c : TableRef) (w w' : World) :
    Prop where
  /-- The table stays as it is. -/
  table : w.heap.KeepsTable c w'.heap
  /-- The session keeps its registry. -/
  session : (w'.session s).hooks = (w.session s).hooks
  /-- No registry goes away. -/
  registries : w.host.registries.size ≤ w'.host.registries.size
  /-- The keymap keeps its actions. -/
  action : ∀ name, w'.host.keymap.action? name = w.host.keymap.action? name
  /-- The registry keeps the functions of keys. -/
  function : ∀ name,
    (w'.host.registry hooks).get? (.key name) = (w.host.registry hooks).get? (.key name)

namespace ReachesKeys

theorem apart (hr : ReachesKeys s hooks c g w last) (ha : KeysApart s hooks c w w') :
    ReachesKeys s hooks c g w' last where
  offers := ha.table.offers hr.offers
  storage key := (ha.table.fields _).trans (hr.storage key)
  function := by
    obtain ⟨r, hg⟩ := hr.function
    have hlt : g.id < w.heap.functions.size := (Array.getElem?_eq_some_iff.1 hg).1
    refine ⟨r, ?_⟩
    rw [Heap.function?, ha.table.functions.get _ hlt]
    exact hg
  session := ha.session.trans hr.session
  stores :=
    ⟨Nat.lt_of_lt_of_le hr.stores.registry_lt ha.registries,
      fun name => (ha.action name).trans (hr.stores.action name),
      fun name => (ha.function name).trans (hr.stores.function name)⟩

theorem raised (hr : ReachesKeys s hooks c g w last) (f : Failure) :
    ReachesKeys s hooks c g (w.raised f) last :=
  hr.apart
    { table := .of_keeps ((Heap.Keeps.refl w.heap).addUser _) hr.offers
      session := rfl
      registries := Nat.le_refl _
      action := fun _ => rfl
      function := fun _ => rfl }

theorem rawGet (hr : ReachesKeys s hooks c g w last) (key : String) :
    w.heap.rawGet c (.text key) = .nil := by
  rw [Value.text, Heap.rawGet_eq _ _ rfl]
  exact hr.storage key

theorem toHost_key (h : Heap) (key : String) :
    Marshal.toHost h (.text key) = .ok (.text key) := by
  rw [Value.text, toHost_str, keyOf, Utf8.decode?_encode]

variable {n b : Nat} {r : RuntimeRef}

/-- A guest reads what the key is bound to. -/
theorem run_index (hr : ReachesKeys s hooks c g w last) (here : Here)
    (name? : Option (String × String)) (key : String) :
    (handlerWithin (n + 1) (b + 1) r).run (here.index name? (.table c) (.text key)) w =
      (.value (((last (normalizeKey key)).map KeyBinding.form).getD .nil), w) := by
  have hget : (PropertyTable.keys hooks).get w.host (.text key) = _ := hr.stores.boundTo?_eq key
  cases hl : last (normalizeKey key) with
  | none =>
    rw [hl] at hget
    exact run_index_of_none hr.offers (hr.rawGet key) (toHost_key _ key) hget here name?
  | some binding =>
    rw [hl] at hget
    cases binding <;>
      exact run_index_of_some hr.offers (hr.rawGet key) (toHost_key _ key) hget (fun _ => rfl) here
        name?

/-- The shell's part of binding a key to a value with a host form. -/
theorem bound (hr : ReachesKeys s hooks c g w last) (key : String) {x : HostValue}
    (hx : Marshal.toHost w.heap v = .ok x) :
    (∃ b? host, KeyBinding.ofGuest? w.heap v = some b? ∧ w.host.bindKey hooks key x = .ok host ∧
      ReachesKeys s hooks c g { w with host := host } (last.bind w.heap key v)) ∨
    (KeyBinding.ofGuest? w.heap v = none ∧ ∃ e, w.host.bindKey hooks key x = .error e) := by
  have hof : KeyBinding.ofGuest? w.heap v = KeyBinding.ofHost? x := by
    rw [KeyBinding.ofGuest?, hx]
    rfl
  rw [hof]
  rcases hr.stores.bindKey_cases key x with ⟨b?, host, hb, hok, hs⟩ | ⟨hb, e, he⟩
  · refine .inl ⟨b?, host, hb, hok, hr.offers, hr.storage, hr.function, hr.session, ?_⟩
    rw [KeyBindings.bind, hof, hb]
    exact hs
  · exact .inr ⟨hb, e, he⟩

/-- What an assignment to the key table does. -/
theorem setIndex_cases (hr : ReachesKeys s hooks c g w last) (here : Here)
    (name? : Option (String × String)) (key : String) (v : Value) :
    ((n = 0 ∨ b = 0) ∧ ∃ e, (handlerWithin n b r).run
      (here.setIndex name? (.table c) (.text key) v) w = (.error e, w)) ∨
    (∃ b? host, KeyBinding.ofGuest? w.heap v = some b? ∧
      (handlerWithin n b r).run (here.setIndex name? (.table c) (.text key) v) w =
        (.value (), { w with host := host }) ∧
      ReachesKeys s hooks c g { w with host := host } (last.bind w.heap key v)) ∨
    (KeyBinding.ofGuest? w.heap v = none ∧ ∃ f,
      (handlerWithin n b r).run (here.setIndex name? (.table c) (.text key) v) w =
        (.error (.user ⟨w.heap.users.size⟩), w.raised f)) := by
  by_cases hdeep : n = 0 ∨ b = 0
  · exact .inl ⟨hdeep, run_setIndex_of_tooDeep hr.offers (hr.rawGet key) hdeep here name? v⟩
  obtain ⟨n, b, rfl, rfl⟩ := exists_room hdeep
  cases hx : Marshal.toHost w.heap v with
  | error e =>
    refine .inr (.inr ⟨by rw [KeyBinding.ofGuest?, hx]; rfl, .marshal e, ?_⟩)
    exact run_setIndex_of_error hr.offers (hr.rawGet key) (toHost_key _ key) rfl hx here name?
  | ok x =>
    have hrun := run_setIndex_of_claims (n := n) (b := b) (r := r) hr.offers (hr.rawGet key)
      (toHost_key _ key) rfl hx here name?
    have hset : (PropertyTable.keys hooks).set w.host (.text key) x =
      w.host.bindKey hooks key x := rfl
    rw [hset] at hrun
    rcases hr.bound key hx with ⟨b?, host, hb, hok, hr'⟩ | ⟨hb, e, he⟩
    · rw [hok] at hrun
      exact .inr (.inl ⟨b?, host, hb, hrun, hr'⟩)
    · rw [he] at hrun
      exact .inr (.inr ⟨hb, .property e, hrun⟩)

section Call

variable {hd : Handler} (r' : RuntimeRef) (sites : CallSites) (key : String) (rest : List Value)

theorem run_keyName :
    hd.run (LibraryCall.keyName ⟨r', sites, "?", .text key :: rest⟩) w = (.value key, w) := by
  have harg : LibraryCall.arg ⟨r', sites, "?", .text key :: rest⟩ 1 = .str (Utf8.encode key) := rfl
  rw [LibraryCall.keyName, harg]
  dsimp only
  rw [Utf8.decode?_encode]
  rfl

theorem arg_two :
    LibraryCall.arg ⟨r', sites, "?", .text key :: rest⟩ 2 = rest.headD .nil := by
  cases rest <;> rfl

/-- What the function for binding keys does, once it is called. -/
theorem run_bindKey {x : HostValue} (hx : Marshal.toHost w.heap (rest.headD .nil) = .ok x) :
    hd.run (LibraryCall.bindKey ⟨r', sites, "?", .text key :: rest⟩ hooks) w =
      match w.host.bindKey hooks key x with
      | .ok host => (.value [.bool true, .nil], { w with host := host })
      | .error e => (.value [.nil, .text e.message], w) := by
  rw [LibraryCall.bindKey, Handler.run_bind_of_value (run_keyName r' sites key rest), arg_two,
    Handler.run_bind_of_value (Handler.run_hostValue hx), Handler.run_ask_bind]
  cases hb : w.host.bindKey hooks key x with
  | ok host =>
    have ha : w.answer (.bindKey hooks key x) = (.ok (), { w with host := host }) := by
      show w.updateHost (w.host.bindKey hooks key x) = _
      rw [hb]
      rfl
    rw [ha]
    rfl
  | error e =>
    have ha : w.answer (.bindKey hooks key x) = (.error e, w) := by
      show w.updateHost (w.host.bindKey hooks key x) = _
      rw [hb]
      rfl
    rw [ha]
    rfl

theorem run_bindKey_of_error {e : MarshalError}
    (hx : Marshal.toHost w.heap (rest.headD .nil) = .error e) :
    hd.run (LibraryCall.bindKey ⟨r', sites, "?", .text key :: rest⟩ hooks) w =
      (.error (.user ⟨w.heap.users.size⟩), w.raised (.marshal e)) := by
  rw [LibraryCall.bindKey, Handler.run_bind_of_value (run_keyName r' sites key rest), arg_two]
  exact Handler.run_bind_of_error (Handler.run_hostValue_of_error hx)

/-- What a call of the function for binding keys does. -/
theorem call_cases (hr : ReachesKeys s hooks c g w last) :
    ((n = 0 ∨ b = 0) ∧ ∃ e, (handlerWithin n b r).call (.func g) (.text key :: rest) sites w =
      (.error e, w)) ∨
    (∃ b? host, KeyBinding.ofGuest? w.heap (rest.headD .nil) = some b? ∧
      (handlerWithin n b r).call (.func g) (.text key :: rest) sites w =
        (.value [.bool true, .nil], { w with host := host }) ∧
      ReachesKeys s hooks c g { w with host := host } (last.bind w.heap key (rest.headD .nil))) ∨
    (KeyBinding.ofGuest? w.heap (rest.headD .nil) = none ∧
      ((∃ f, (handlerWithin n b r).call (.func g) (.text key :: rest) sites w =
          (.error (.user ⟨w.heap.users.size⟩), w.raised f)) ∨
        ∃ message, (handlerWithin n b r).call (.func g) (.text key :: rest) sites w =
          (.value [.nil, .text message], w))) := by
  rcases call_refused_or_runs n b r (.func g) (.text key :: rest) sites w with
    hdeep | ⟨n', b', hcall⟩
  · exact .inl hdeep
  · obtain ⟨r', hg⟩ := hr.function
    have hbody : bodyOf w r (.func g) (.text key :: rest) sites =
        (r', LibraryCall.bindKey ⟨r', sites, "?", .text key :: rest⟩ hooks) := by
      rw [bodyOf, hg]
      dsimp only
      rw [callBody, hg]
    rw [hcall, hbody]
    cases hx : Marshal.toHost w.heap (rest.headD .nil) with
    | error e =>
      refine .inr (.inr ⟨by rw [KeyBinding.ofGuest?, hx]; rfl, .inl ⟨.marshal e, ?_⟩⟩)
      exact run_bindKey_of_error r' sites key rest hx
    | ok x =>
      rw [run_bindKey r' sites key rest hx]
      rcases hr.bound key hx with ⟨b?, host, hb, hok, hr'⟩ | ⟨hb, e, he⟩
      · rw [hok]
        exact .inr (.inl ⟨b?, host, hb, rfl, hr'⟩)
      · rw [he]
        exact .inr (.inr ⟨hb, .inr ⟨_, rfl⟩⟩)

end Call

/-! What each kind of step leaves; how it ends tells which of the ways it went. -/

section Steps

variable {w' : World} {v e : Value} {here : Here} {name? : Option (String × String)} {key : String}
  {sites : CallSites} {rest : List Value}

theorem assign (hr : ReachesKeys s hooks c g w last)
    (run : (handlerWithin n b r).run (here.setIndex name? (.table c) (.text key) v) w =
      (.value (), w')) :
    ReachesKeys s hooks c g w' (last.bind w.heap key v) := by
  rcases hr.setIndex_cases (n := n) (b := b) (r := r) here name? key v with
    ⟨-, e, he⟩ | ⟨b?, host, -, hw, hr'⟩ | ⟨-, f, hf⟩
  · rw [run] at he
    cases he
  · rw [run] at hw
    cases hw
    exact hr'
  · rw [run] at hf
    cases hf

theorem failAssign (hr : ReachesKeys s hooks c g w last)
    (run : (handlerWithin n b r).run (here.setIndex name? (.table c) (.text key) v) w =
      (.error e, w')) :
    ReachesKeys s hooks c g w' last := by
  rcases hr.setIndex_cases (n := n) (b := b) (r := r) here name? key v with
    ⟨-, e, he⟩ | ⟨b?, host, -, hw, -⟩ | ⟨-, f, hf⟩
  · rw [run] at he
    cases he
    exact hr
  · rw [run] at hw
    cases hw
  · rw [run] at hf
    cases hf
    exact hr.raised f

theorem call (hr : ReachesKeys s hooks c g w last)
    (run : (handlerWithin n b r).call (.func g) (.text key :: rest) sites w =
      (.value [.bool true, .nil], w')) :
    ReachesKeys s hooks c g w' (last.bind w.heap key (rest.headD .nil)) := by
  rcases hr.call_cases (n := n) (b := b) (r := r) sites key rest with
    ⟨-, e, he⟩ | ⟨b?, host, -, hw, hr'⟩ | ⟨-, ⟨f, hf⟩ | ⟨message, hm⟩⟩
  · rw [run] at he
    cases he
  · rw [run] at hw
    cases hw
    exact hr'
  · rw [run] at hf
    cases hf
  · rw [run] at hm
    cases hm

theorem refuse {message : String} (hr : ReachesKeys s hooks c g w last)
    (run : (handlerWithin n b r).call (.func g) (.text key :: rest) sites w =
      (.value [.nil, .text message], w')) :
    ReachesKeys s hooks c g w' last := by
  rcases hr.call_cases (n := n) (b := b) (r := r) sites key rest with
    ⟨-, e, he⟩ | ⟨b?, host, -, hw, -⟩ | ⟨-, ⟨f, hf⟩ | ⟨message', hm⟩⟩
  · rw [run] at he
    cases he
  · rw [run] at hw
    cases hw
  · rw [run] at hf
    cases hf
  · obtain rfl : w' = w := congrArg Prod.snd (run.symm.trans hm)
    exact hr

theorem failCall (hr : ReachesKeys s hooks c g w last)
    (run : (handlerWithin n b r).call (.func g) (.text key :: rest) sites w = (.error e, w')) :
    ReachesKeys s hooks c g w' last := by
  rcases hr.call_cases (n := n) (b := b) (r := r) sites key rest with
    ⟨-, e, he⟩ | ⟨b?, host, -, hw, -⟩ | ⟨-, ⟨f, hf⟩ | ⟨message, hm⟩⟩
  · rw [run] at he
    cases he
    exact hr
  · rw [run] at hw
    cases hw
  · rw [run] at hf
    cases hf
    exact hr.raised f
  · rw [run] at hm
    cases hm

end Steps

/-- Pressing a key runs the function that it is bound to, if that is one. -/
theorem run_runKey (hr : ReachesKeys s hooks c g w last) (hd : Handler) (context : Context)
    (key line : String) :
    hd.run (s.runKey context key line) w =
      hd.run (s.pressed context line (last (normalizeKey key))) w := by
  have hget : (w.host.registry (w.session s).hooks).get? (.ofKey key) =
      (last (normalizeKey key)).bind KeyBinding.function? := by
    rw [hr.session]
    exact hr.stores.function (normalizeKey key)
  have hhook := SessionRef.run_invokeHook (h := hd) (w := w) (s := s) context (.ofKey key)
    [.text line]
  rw [hget] at hhook
  refine (Handler.run_session_bind_congr hhook _).trans ?_
  cases last (normalizeKey key) with
  | none => rfl
  | some binding =>
    cases binding with
    | action name => rfl
    | script f =>
      show hd.run (Program.invoke ⟨s, context, f, [.text line]⟩ _) w =
        hd.run (Program.invoke ⟨s, context, f, [.text line]⟩ _) w
      simp only [Handler.run]
      cases hd.invoke ⟨s, context, f, [.text line]⟩ w with
      | mk outcome w' =>
        cases outcome with
        | value result => cases result <;> rfl
        | error v => rfl
        | exhausted => rfl

end ReachesKeys

/-! ## Whole histories -/

/-- What can happen to the keys of a session from some state on, with what they are bound to by
then.  Guests bind keys by assignments to the key table and by calls of the function for it, under
names in any spelling and to values of any kind; some of that fails or is refused; and other things
happen in between. -/
inductive BindingHistory (s : SessionRef) (hooks : RegistryRef) (c : TableRef) (g : GuestFunction)
    (w₀ : World) : World → KeyBindings → Prop
  /-- Nothing has happened yet. -/
  | start : BindingHistory s hooks c g w₀ w₀ (.start w₀)
  /-- A guest assigns to the key table. -/
  | assign {w w' : World} {last : KeyBindings} (h : BindingHistory s hooks c g w₀ w last)
      (n b : Nat) (r : RuntimeRef) (here : Here) (name? : Option (String × String)) (key : String)
      (v : Value)
      (run : (handlerWithin n b r).run (here.setIndex name? (.table c) (.text key) v) w =
        (.value (), w')) :
      BindingHistory s hooks c g w₀ w' (last.bind w.heap key v)
  /-- An assignment fails. -/
  | fail {w w' : World} {last : KeyBindings} (h : BindingHistory s hooks c g w₀ w last)
      (n b : Nat) (r : RuntimeRef) (here : Here) (name? : Option (String × String)) (key : String)
      (v e : Value)
      (run : (handlerWithin n b r).run (here.setIndex name? (.table c) (.text key) v) w =
        (.error e, w')) :
      BindingHistory s hooks c g w₀ w' last
  /-- A guest calls the function for binding keys. -/
  | call {w w' : World} {last : KeyBindings} (h : BindingHistory s hooks c g w₀ w last)
      (n b : Nat) (r : RuntimeRef) (sites : CallSites) (key : String) (rest : List Value)
      (run : (handlerWithin n b r).call (.func g) (.text key :: rest) sites w =
        (.value [.bool true, .nil], w')) :
      BindingHistory s hooks c g w₀ w' (last.bind w.heap key (rest.headD .nil))
  /-- The function refuses. -/
  | refuse {w w' : World} {last : KeyBindings} (h : BindingHistory s hooks c g w₀ w last)
      (n b : Nat) (r : RuntimeRef) (sites : CallSites) (key message : String) (rest : List Value)
      (run : (handlerWithin n b r).call (.func g) (.text key :: rest) sites w =
        (.value [.nil, .text message], w')) :
      BindingHistory s hooks c g w₀ w' last
  /-- The call fails. -/
  | failCall {w w' : World} {last : KeyBindings} (h : BindingHistory s hooks c g w₀ w last)
      (n b : Nat) (r : RuntimeRef) (sites : CallSites) (key : String) (rest : List Value)
      (e : Value)
      (run : (handlerWithin n b r).call (.func g) (.text key :: rest) sites w = (.error e, w')) :
      BindingHistory s hooks c g w₀ w' last
  /-- Something else happens. -/
  | other {w w' : World} {last : KeyBindings} (h : BindingHistory s hooks c g w₀ w last)
      (apart : KeysApart s hooks c w w') : BindingHistory s hooks c g w₀ w' last

/-- At every point of a history the two stores hold what the keys are bound to. -/
theorem BindingHistory.reaches {w₀ : World} (hstart : ReachesKeys s hooks c g w₀ (.start w₀))
    (h : BindingHistory s hooks c g w₀ w last) : ReachesKeys s hooks c g w last := by
  induction h with
  | start => exact hstart
  | assign _ n b r here name? key v run ih => exact ih.assign run
  | fail _ n b r here name? key v e run ih => exact ih.failAssign run
  | call _ n b r sites key rest run ih => exact ih.call run
  | refuse _ n b r sites key message rest run ih => exact ih.refuse run
  | failCall _ n b r sites key rest e run ih => exact ih.failCall run
  | other _ apart ih => exact ih.apart apart

/-! ## New sessions -/

namespace Guest.Heap

variable {h : Heap} {t u : TableRef} {name name' : String} {code : Code}

theorem HasMethod.setField (hh : h.HasMethod t name code) (hn : name' ≠ name) (v : Value) :
    (h.setField u name' v).HasMethod t name code := by
  obtain ⟨f, r, hfield, hf⟩ := hh
  exact ⟨f, r, (field_setField_of_ne _ _ hn ..).trans hfield, hf⟩

/-- The capability table of a shell with keys has the function for binding them. -/
theorem hasMethod_addCapabilities (r : RuntimeRef) (runtime : Runtime) {capabilities : Capabilities}
    (hkeys : capabilities.keys = true) (hooks : RegistryRef) (path? : Option String)
    (hg : runtime.globals.id < h.tables.size) :
    (Session.addCapabilities r runtime capabilities hooks path? h).2.HasMethod
      (Session.addCapabilities r runtime capabilities hooks path? h).1 "bindkey"
      (.bindKey hooks) := by
  have hown := isPart_addPropertyTable hg r (.capabilities capabilities.scalars hooks)
  unfold Session.addCapabilities
  dsimp only
  generalize (addPropertyTable r (.capabilities capabilities.scalars hooks) h).1 = t at hown ⊢
  generalize (addPropertyTable r (.capabilities capabilities.scalars hooks) h).2 = h₁ at hown ⊢
  have k₂ := Fills.putFunctions hown.lt (Nat.le_of_lt hown.behind) r capabilities.functions
  have k₃ := k₂.trans (Fills.putLibrary k₂.next_lt runtime.globals)
  obtain ⟨k₄, -⟩ := hasPart_putCollections r capabilities.collections _ k₃.next_lt
  generalize Session.putCollections r t capabilities.collections _ = h₄ at k₄ ⊢
  have hadd := Fills.addPropertyTable k₄.next_lt r (.keys hooks)
  have hput := hadd.trans (Fills.setField hadd.next_lt (Nat.le_refl _) "key"
    (.table (addPropertyTable r (.keys hooks) h₄).1))
  have hbind : (Session.putKeys r t hooks h₄).HasMethod t "bindkey" (.bindKey hooks) :=
    hasMethod_putCode hput.next_lt r "bindkey" (.bindKey hooks)
  rw [if_pos hkeys]
  exact (hbind.setField (by decide) _).setField (by decide) _

end Guest.Heap

namespace World

variable (w : World) (shell : ShellRef) (capabilities : Capabilities) (config : Config)

theorem hasMethod_placeSession (hkeys : capabilities.keys = true) :
    (w.placeSession shell capabilities config).2.heap.HasMethod (w.nextCapabilities capabilities).1
      "bindkey" (.bindKey w.addRegistry.1) := by
  obtain ⟨b, hg⟩ := w.builds_addRuntime
  obtain ⟨f, r, hfield, hf⟩ := Heap.hasMethod_addCapabilities ⟨w.runtimes.size⟩ w.nextRuntime hkeys
    w.addRegistry.1 w.executable? hg.table_lt
  obtain ⟨-, -, hget, -⟩ := w.nextCapabilities_placeSession shell capabilities config
  refine ⟨f, r, (hget _).trans hfield, ?_⟩
  -- what is set in front of the table leaves the functions alone
  rw [heap_placeSession, Session.install]
  dsimp only
  generalize Session.addCapabilities ⟨w.runtimes.size⟩ w.nextRuntime capabilities
    w.addRegistry.1 w.executable? _ = built at hf ⊢
  exact hf

/-- A new session begins with the actions of the keymap and without functions for keys. -/
theorem holdsKeys_placeSession :
    HoldsKeys (w.placeSession shell capabilities config).2.host w.addRegistry.1
      (.start (w.placeSession shell capabilities config).2) where
  registry_lt := w.registry_placeSession shell capabilities config
  action name := by
    rw [KeyBindings.start]
    cases (w.placeSession shell capabilities config).2.host.keymap.action? name <;> rfl
  function name := by
    rw [KeyBindings.start, host_placeSession]
    show ((w.host.registries.push {})[w.host.registries.size]?.getD {}).get? _ = _
    rw [Array.getElem?_push_size]
    cases w.host.addRegistry.2.keymap.action? name <;> rfl

/-- A session with keys can be added, and they behave as the history of its bindings says, at every
point of every such history.  The keymap and the registry hold what each name was last bound to, and
a name with a function has the action that runs functions.  A guest reads what a key is bound to,
and pressing the key runs the function if it is one, in any spelling of the name.  A binding that is
asked for in either way is made if there is room for it, and if the value is rejected nothing on the
shell's side changes. -/
theorem key_bindings (hvalid : capabilities.validate = .ok ()) (hkeys : capabilities.keys = true) :
    ∃ session new t c g, w.addSession shell capabilities config = .ok (session, new) ∧
      (config.namespaceName ≠ "share" →
        new.heap.field (new.globals session) config.namespaceName = .table t) ∧
      new.heap.field t "key" = .table c ∧ new.heap.field t "bindkey" = .func g ∧
      ∀ w' last, BindingHistory session (new.session session).hooks c g new w' last →
        (∀ name, w'.host.keymap.action? name = (last name).map KeyBinding.marker ∧
          (w'.host.registry (new.session session).hooks).get? (.key name) =
            (last name).bind KeyBinding.function?) ∧
        (∀ name f, (w'.host.registry (new.session session).hooks).get? (.key name) = some f →
          w'.host.keymap.action? name = some scriptAction) ∧
        (∀ (n b : Nat) (r : RuntimeRef) (here : Here) (name? : Option (String × String))
            (key : String),
          (handlerWithin (n + 1) (b + 1) r).run (here.index name? (.table c) (.text key)) w' =
            (.value (((last (normalizeKey key)).map KeyBinding.form).getD .nil), w')) ∧
        (∀ (hd : Handler) (context : Context) (key line : String),
          hd.run (session.runKey context key line) w' =
            hd.run (session.pressed context line (last (normalizeKey key))) w') ∧
        (∀ (n b : Nat) (r : RuntimeRef) (here : Here) (name? : Option (String × String))
            (key : String) (v : Value),
          (KeyBinding.ofGuest? w'.heap v ≠ none → ∃ w'', (handlerWithin (n + 1) (b + 1) r).run
            (here.setIndex name? (.table c) (.text key) v) w' = (.value (), w'')) ∧
          (KeyBinding.ofGuest? w'.heap v = none → ∃ e w'', (handlerWithin n b r).run
            (here.setIndex name? (.table c) (.text key) v) w' = (.error e, w'') ∧
              w''.host = w'.host)) ∧
        ∀ (n b : Nat) (r : RuntimeRef) (sites : CallSites) (key : String) (rest : List Value),
          (KeyBinding.ofGuest? w'.heap (rest.headD .nil) ≠ none → ∃ w'',
            (handlerWithin (n + 1) (b + 1) r).call (.func g) (.text key :: rest) sites w' =
              (.value [.bool true, .nil], w'')) ∧
          (KeyBinding.ofGuest? w'.heap (rest.headD .nil) = none → ∃ outcome w'',
            (handlerWithin n b r).call (.func g) (.text key :: rest) sites w' = (outcome, w'') ∧
              outcome ≠ .value [.bool true, .nil] ∧ w''.host = w'.host) := by
  have hadd : w.addSession shell capabilities config =
      .ok (w.placeSession shell capabilities config) := by
    rw [addSession, hvalid]
  obtain ⟨-, htable, -, hfield⟩ := w.nextCapabilities_placeSession shell capabilities config
  obtain ⟨c, hc, hpart⟩ := htable.keys hkeys
  obtain ⟨g, r, hg, hfunction⟩ := w.hasMethod_placeSession shell capabilities config hkeys
  have hstores := w.holdsKeys_placeSession shell capabilities config
  have hsession := w.session_placeSession shell capabilities config
  have hruntime := w.runtime_placeSession shell capabilities config
  generalize w.placeSession shell capabilities config = placed
    at hadd hfield hc hpart hg hfunction hstores hsession hruntime
  obtain ⟨session, new⟩ := placed
  refine ⟨session, new, (w.nextCapabilities capabilities).1, c, g, hadd, ?_⟩
  rw [globals, hsession, hruntime]
  refine ⟨hfield, hc, hg, fun w' last h => ?_⟩
  -- all that follows is read off the two stores at that point of the history
  have hr : ReachesKeys session w.addRegistry.1 c g w' last :=
    h.reaches ⟨hpart.offers, fun key => hpart.empty _, ⟨r, hfunction⟩, by rw [hsession], hstores⟩
  refine ⟨fun name => ⟨hr.stores.action name, hr.stores.function name⟩,
    fun name f hf => hr.stores.action_of_function hf,
    fun n b r here name? key => hr.run_index here name? key,
    fun hd context key line => hr.run_runKey hd context key line,
    fun n b r here name? key v => ⟨fun hb => ?_, fun hb => ?_⟩,
    fun n b r sites key rest => ⟨fun hb => ?_, fun hb => ?_⟩⟩
  · rcases hr.setIndex_cases (n := n + 1) (b := b + 1) (r := r) here name? key v with
      ⟨hdeep, -⟩ | ⟨b?, host, -, hw, -⟩ | ⟨hnone, -⟩
    · exact absurd hdeep (by omega)
    · exact ⟨_, hw⟩
    · exact absurd hnone hb
  · rcases hr.setIndex_cases (n := n) (b := b) (r := r) here name? key v with
      ⟨-, e, he⟩ | ⟨b?, host, hsome, -⟩ | ⟨-, f, hf⟩
    · exact ⟨e, w', he, rfl⟩
    · rw [hb] at hsome
      cases hsome
    · exact ⟨_, _, hf, rfl⟩
  · rcases hr.call_cases (n := n + 1) (b := b + 1) (r := r) sites key rest with
      ⟨hdeep, -⟩ | ⟨b?, host, -, hw, -⟩ | ⟨hnone, -⟩
    · exact absurd hdeep (by omega)
    · exact ⟨_, hw⟩
    · exact absurd hnone hb
  · rcases hr.call_cases (n := n) (b := b) (r := r) sites key rest with
      ⟨-, e, he⟩ | ⟨b?, host, hsome, -⟩ | ⟨-, ⟨f, hf⟩ | ⟨message, hm⟩⟩
    · exact ⟨_, w', he, by simp, rfl⟩
    · rw [hb] at hsome
      cases hsome
    · exact ⟨_, _, hf, by simp, rfl⟩
    · exact ⟨_, _, hm, by simp, rfl⟩

/-- A shell with keys. -/
def keysOffer : Capabilities := { keys := true }

/-- A key that is bound to an action has it in another spelling too, it runs nothing, and no name of
an action is empty. -/
theorem key_bound_to_action :
    ∃ session new t c, addSession {} ⟨0⟩ keysOffer {} = .ok (session, new) ∧
      new.heap.field t "key" = .table c ∧
      ∀ (r : RuntimeRef) (here : Here) (name? : Option (String × String)) (context : Context),
        ∃ w', (handler r).run (here.setIndex name? (.table c) (.text "c-o") (.text "undo")) new =
            (.value (), w') ∧
          (handler r).run (here.index name? (.table c) (.text "C_o")) w' =
            (.value (.text "undo"), w') ∧
          (handler r).run (session.runKey context "C-O" "") w' = (.value (.ok none), w') ∧
          ∃ e w'', (handler r).run (here.setIndex name? (.table c) (.text "c-o") (.text "")) w' =
              (.error e, w'') ∧ w''.host = w'.host := by
  obtain ⟨session, new, t, c, g, hadd, -, hc, -, hkeys⟩ :=
    key_bindings {} ⟨0⟩ keysOffer {} rfl rfl
  refine ⟨session, new, t, c, hadd, hc, fun r here name? context => ?_⟩
  have htext (h : Heap) (text : String) :
      KeyBinding.ofGuest? h (.text text) = KeyBinding.ofHost? (.text text) := by
    rw [KeyBinding.ofGuest?, ReachesKeys.toHost_key]
    rfl
  obtain ⟨-, -, -, -, hassign, -⟩ := hkeys new _ .start
  obtain ⟨w', hw'⟩ := (hassign 5999 198 r here name? "c-o" (.text "undo")).1
    (by rw [htext]; decide)
  obtain ⟨-, -, hread, hpress, hagain, -⟩ :=
    hkeys w' _ (.assign .start 6000 199 r here name? "c-o" (.text "undo") hw')
  have hlast : (KeyBindings.start new).bind new.heap "c-o" (.text "undo") "C_O" =
      some (.action "undo") := by
    rw [KeyBindings.bind, htext]
    show Function.update (KeyBindings.start new) (normalizeKey "c-o") (some (.action "undo"))
      "C_O" = _
    rw [show normalizeKey "c-o" = "C_O" by decide, Function.update_self]
  have hread' := hread 5999 198 r here name? "C_o"
  have hpress' := hpress (handler r) context "C-O" ""
  rw [show normalizeKey "C_o" = "C_O" by decide, hlast] at hread'
  rw [show normalizeKey "C-O" = "C_O" by decide, hlast] at hpress'
  exact ⟨w', hw', hread', hpress', (hagain 6000 199 r here name? "c-o" (.text "")).2
    (by rw [htext]; rfl)⟩

end World
end ScriptShell
