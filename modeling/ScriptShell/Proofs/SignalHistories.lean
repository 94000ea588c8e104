import Mathlib.Logic.Relation
import ScriptShell.Proofs.Signals
import ScriptShell.Signal.Handles

/-! # What the uses of handles tell of signals

Whether a handle tells that its signal is cancelled can be read off what was done with handles
before, and nothing else (`SignalHandles.cancellation_tree`).  The signals themselves say so only as
long as something refers to them: `SignalHandles.Held` are those that a handle leads to, by itself or
through children, and `SignalHandles.Traces` is what the uses tell of these.  A signal that is given
up is not among them (`Held.refersTo`), so giving it up changes no answer.
-/

namespace ScriptShell

namespace SignalHandles

open HandleUse

/-! ## What the uses tell -/

/-- Whether a use makes a handle. -/
def Makes : HandleUse → Bool
  | create | clone _ | child _ => true
  | cancel _ | drop _ => false

/-- The uses that made the handles, in the order of the handles. -/
def makings (us : List HandleUse) : List HandleUse := us.filter Makes

/-- The use that made a handle. -/
def maker? (us : List HandleUse) (h : SignalHandle) : Option HandleUse := (makings us)[h.id]?

/-- Cancelling through the first handle cancels the second at once: one of the two is a clone of the
other, or the second was made as a child of the first. -/
inductive PassesOn (us : List HandleUse) : SignalHandle → SignalHandle → Prop where
  /-- From a handle to its clone. -/
  | toClone {a b : SignalHandle} (made : maker? us b = some (clone a)) : PassesOn us a b
  /-- From a clone to the handle that it was made from. -/
  | fromClone {a b : SignalHandle} (made : maker? us a = some (clone b)) : PassesOn us a b
  /-- From a handle to its child. -/
  | toChild {a b : SignalHandle} (made : maker? us b = some (child a)) : PassesOn us a b

/-- Cancelling through the first handle cancels the second: it is the same handle, a clone of it, an
ancestor, or a clone of an ancestor. -/
def Reaches (us : List HandleUse) : SignalHandle → SignalHandle → Prop :=
  Relation.ReflTransGen (PassesOn us)

variable {us : List HandleUse} {u m : HandleUse} {a b g h : SignalHandle}

theorem makings_append (us vs : List HandleUse) : makings (us ++ vs) = makings us ++ makings vs :=
  List.filter_append ..

theorem makings_make (us : List HandleUse) (hu : Makes u = true) :
    makings (us ++ [u]) = makings us ++ [u] := by
  rw [makings_append, makings, makings, List.filter_cons_of_pos hu, List.filter_nil]

theorem makings_other (us : List HandleUse) (hu : Makes u = false) :
    makings (us ++ [u]) = makings us := by
  rw [makings_append, makings, makings, List.filter_cons_of_neg (Bool.eq_false_iff.1 hu),
    List.filter_nil, List.append_nil]

theorem maker?_append (vs : List HandleUse) (hm : maker? us h = some m) :
    maker? (us ++ vs) h = some m := by
  rw [maker?, makings_append, List.getElem?_append_left (List.getElem?_eq_some_iff.1 hm).1]
  exact hm

/-- The last use makes the last handle, if it makes one, and no other. -/
theorem maker?_make (us : List HandleUse) (hu : Makes u = true) (h : SignalHandle) :
    maker? (us ++ [u]) h = if h = ⟨(makings us).length⟩ then some u else maker? us h := by
  rw [maker?, maker?, makings_make us hu]
  split
  · next hh => rw [hh, List.getElem?_concat_length]
  · next hh =>
    have hid : h.id ≠ (makings us).length := fun he => hh (SignalHandle.ext he)
    rw [List.getElem?_append]
    split
    · rfl
    · rw [List.getElem?_eq_none (by rw [List.length_singleton]; omega),
        List.getElem?_eq_none (by omega)]

/-- A use that makes a handle cancels through none. -/
theorem cancel_mem_make (us : List HandleUse) (hu : Makes u = true) :
    cancel h ∈ us ++ [u] ↔ cancel h ∈ us := by
  rw [List.mem_append, List.mem_singleton, or_iff_left_iff_imp]
  rintro rfl
  cases hu

/-- Nor does it drop one. -/
theorem drop_mem_make (us : List HandleUse) (hu : Makes u = true) :
    drop h ∈ us ++ [u] ↔ drop h ∈ us := by
  rw [List.mem_append, List.mem_singleton, or_iff_left_iff_imp]
  rintro rfl
  cases hu

theorem maker?_other (us : List HandleUse) (hu : Makes u = false) (h : SignalHandle) :
    maker? (us ++ [u]) h = maker? us h := by
  rw [maker?, makings_other us hu, maker?]

theorem Reaches.mono {us' : List HandleUse}
    (hmakers : ∀ h m, maker? us h = some m → maker? us' h = some m) (hr : Reaches us a b) :
    Reaches us' a b := by
  refine Relation.ReflTransGen.mono (fun a b hp => ?_) a b hr
  cases hp with
  | toClone made => exact .toClone (hmakers b _ made)
  | fromClone made => exact .fromClone (hmakers a _ made)
  | toChild made => exact .toChild (hmakers b _ made)

/-- Later uses change nothing about the handles that there are. -/
theorem Reaches.append (vs : List HandleUse) (hr : Reaches us a b) : Reaches (us ++ vs) a b :=
  hr.mono fun _ _ => maker?_append vs

/-! ## What the handles lead to -/

variable {s s' : SignalHandles} {x y p : Signal} {st : SignalState}

/-- The signal that a handle is on, or was on before it was dropped. -/
def target? (s : SignalHandles) (h : SignalHandle) : Option Signal :=
  (s.handles[h.id]?).map (·.signal)

/-- The signals that a handle leads to, by itself or from a child to its parent. -/
inductive Held (s : SignalHandles) : Signal → Prop where
  /-- The signal of a handle that is still there. -/
  | handle {h : SignalHandle} {x : Signal} (on : s.signal? h = some x) : Held s x
  /-- The parent of such a signal. -/
  | parent {x p : Signal} {st : SignalState} (held : Held s x)
    (found : s.signals.states[x.id]? = some st) (link : st.parent? = some p) : Held s p

theorem signal?_eq_some_iff : s.signal? h = some x ↔ s.handles[h.id]? = some ⟨x, true⟩ := by
  unfold signal?
  split
  · next st hst =>
    obtain ⟨y, live⟩ := st
    cases live <;> simp [hst]
  · next hst => simp [hst]

theorem target?_of_signal? (on : s.signal? h = some x) : s.target? h = some x := by
  rw [target?, signal?_eq_some_iff.1 on]
  rfl

theorem target?_isSome_iff : (∃ x, s.target? h = some x) ↔ h.id < s.handles.size := by
  rw [← Option.isSome_iff_exists, target?, Option.isSome_map]
  simp

/-- What a handle leads to has something that refers to it. -/
theorem Held.refersTo (held : s.Held x) : s.refersTo x = true := by
  rw [SignalHandles.refersTo, Bool.or_eq_true]
  cases held with
  | handle on =>
    have hmem := Array.mem_of_getElem? (signal?_eq_some_iff.1 on)
    exact .inl (Array.any_eq_true'.2 ⟨_, hmem, by simp⟩)
  | parent _ found link =>
    exact .inr (Array.any_eq_true'.2 ⟨_, Array.mem_of_getElem? found, by simp [link]⟩)

/-- Handles lead to no other signals than before if no handle does so by itself and the links are
those from before. -/
theorem Held.of_links (held : s'.Held x) (hsignal : ∀ h x, s'.signal? h = some x → s.Held x)
    (hlink : ∀ x st, s.Held x → s'.signals.states[x.id]? = some st →
      ∃ st', s.signals.states[x.id]? = some st' ∧ st'.parent? = st.parent?) : s.Held x := by
  induction held with
  | handle on => exact hsignal _ _ on
  | parent _ found link ih =>
    obtain ⟨st', found', hparent⟩ := hlink _ _ ih found
    exact ih.parent found' (hparent.trans link)

/-- What is known of a signal is what the uses tell. -/
structure Told (us : List HandleUse) (s : SignalHandles) (x : Signal) (st : SignalState) :
    Prop where
  /-- It was cancelled if it was so through a handle on it. -/
  flag : st.cancelled = true ↔ ∃ g, cancel g ∈ us ∧ s.target? g = some x
  /-- Its parent is the signal that it was made as a child of. -/
  link : ∀ p, st.parent? = some p ↔
    ∃ a b, maker? us b = some (child a) ∧ s.target? b = some x ∧ s.target? a = some p

/-- What the uses, from nothing on, tell of the handles and of the signals that they lead to. -/
structure Traces (us : List HandleUse) (s : SignalHandles) : Prop where
  /-- Parents come before their children. -/
  ordered : s.signals.Ordered
  /-- Each making made one handle. -/
  count : s.handles.size = (makings us).length
  /-- The handles are on signals that exist. -/
  bounded : ∀ h x, s.target? h = some x → x.id < s.signals.states.size
  /-- Handles are used only when they have been made. -/
  used : ∀ h, cancel h ∈ us ∨ drop h ∈ us → h.id < s.handles.size
  /-- They are still there if they have not been dropped. -/
  live : ∀ h, (s.signal? h).isSome = true ↔ h.id < s.handles.size ∧ drop h ∉ us
  /-- A clone is on the signal of the handle that it was made from. -/
  clones : ∀ a b, maker? us b = some (clone a) →
    ∃ x, s.target? a = some x ∧ s.target? b = some x
  /-- A child was made from a handle that there was. -/
  children : ∀ a b, maker? us b = some (child a) → a.id < s.handles.size
  /-- Handles on one signal were made from one another. -/
  together : ∀ a b x, s.target? a = some x → s.target? b = some x → Reaches us a b
  /-- Of signals that handles lead to it is known what the uses tell. -/
  told : ∀ x, s.Held x → ∃ st, s.signals.states[x.id]? = some st ∧ Told us s x st

/-! ## Answers -/

namespace Traces

variable (ht : Traces us s)
include ht

/-- A cancelled signal was cancelled through a handle that reaches each handle on it. -/
theorem exists_reaches (hc : s.signals.Cancelled x) (held : s.Held x)
    (hh : s.target? h = some x) : ∃ g, cancel g ∈ us ∧ Reaches us g h := by
  induction hc generalizing h with
  | @own x st found flag =>
    obtain ⟨st', found', told⟩ := ht.told x held
    cases found.symm.trans found'
    obtain ⟨g, hg, hgx⟩ := told.flag.1 flag
    exact ⟨g, hg, ht.together g h x hgx hh⟩
  | @parent x p st found link _ ih =>
    obtain ⟨st', found', told⟩ := ht.told x held
    cases found.symm.trans found'
    obtain ⟨a, b, hmade, hb, ha⟩ := (told.link p).1 link
    obtain ⟨g, hg, hga⟩ := ih (held.parent found link) ha
    have hab : Reaches us a b := .single (.toChild hmade)
    exact ⟨g, hg, (hga.trans hab).trans (ht.together b h x hb hh)⟩

/-- The signal of a handle that is reached from where was cancelled is cancelled. -/
theorem cancelled_of_reaches (hg : cancel g ∈ us) (hr : Reaches us g h)
    (hh : s.target? h = some x) (held : s.Held x) : s.signals.Cancelled x := by
  induction hr generalizing x with
  | refl =>
    obtain ⟨st, found, told⟩ := ht.told x held
    exact .own found (told.flag.2 ⟨g, hg, hh⟩)
  | @tail a b _ hab ih =>
    cases hab with
    | toClone made =>
      obtain ⟨y, ha, hb⟩ := ht.clones a b made
      cases hb.symm.trans hh
      exact ih ha held
    | fromClone made =>
      obtain ⟨y, hb, ha⟩ := ht.clones b a made
      cases hb.symm.trans hh
      exact ih ha held
    | toChild made =>
      obtain ⟨p, ha⟩ := target?_isSome_iff.2 (ht.children a b made)
      obtain ⟨st, found, told⟩ := ht.told x held
      have link := (told.link p).2 ⟨a, b, made, hh, ha⟩
      exact .parent found link (ih ha (held.parent found link))

/-- **A handle tells what the uses tell.** -/
theorem isCancelled?_iff {c : Bool} (hc : s.isCancelled? h = some c) :
    c = true ↔ ∃ g, cancel g ∈ us ∧ Reaches us g h := by
  obtain ⟨x, on, rfl⟩ := Option.map_eq_some_iff.1 hc
  have hh := target?_of_signal? on
  rw [Signals.isCancelled_iff ht.ordered]
  constructor
  · intro hx
    exact ht.exists_reaches hx (.handle on) hh
  · rintro ⟨g, hg, hr⟩
    exact ht.cancelled_of_reaches hg hr hh (.handle on)

end Traces

/-! ## Making a handle -/

theorem getElem?_push (hpush : s'.handles = s.handles.push { signal := y }) (h : SignalHandle) :
    s'.handles[h.id]? = if h = s.next then some { signal := y } else s.handles[h.id]? := by
  have hnext : h = s.next ↔ h.id = s.handles.size := SignalHandle.ext_iff
  rw [hpush, Array.getElem?_push]
  simp only [hnext]

theorem signal?_push (hpush : s'.handles = s.handles.push { signal := y }) (h : SignalHandle) :
    s'.signal? h = if h = s.next then some y else s.signal? h := by
  rw [signal?, getElem?_push hpush]
  by_cases hh : h = s.next
  · rw [if_pos hh, if_pos hh]
    rfl
  · rw [if_neg hh, if_neg hh, signal?]

theorem target?_push (hpush : s'.handles = s.handles.push { signal := y }) (h : SignalHandle) :
    s'.target? h = if h = s.next then some y else s.target? h := by
  rw [target?, getElem?_push hpush]
  split <;> rfl

theorem target?_push_self (hpush : s'.handles = s.handles.push { signal := y }) :
    s'.target? s.next = some y := by
  rw [target?_push hpush, if_pos rfl]

theorem target?_push_of_lt (hpush : s'.handles = s.handles.push { signal := y })
    (hh : h.id < s.handles.size) : s'.target? h = s.target? h := by
  rw [target?_push hpush, if_neg]
  rintro rfl
  exact Nat.lt_irrefl _ hh

theorem lt_size_push (hpush : s'.handles = s.handles.push { signal := y }) :
    h.id < s'.handles.size ↔ h = s.next ∨ h.id < s.handles.size := by
  rw [hpush, Array.size_push, SignalHandle.ext_iff, Nat.lt_succ_iff_lt_or_eq, or_comm]
  rfl

/-- A signal that a handle is on is that of the new one, or one of the others has it. -/
theorem target?_push_cases (hpush : s'.handles = s.handles.push { signal := y })
    (hh : s'.target? h = some x) : h = s.next ∧ x = y ∨ s.target? h = some x := by
  rw [target?_push hpush] at hh
  split at hh
  · next hnext => exact .inl ⟨hnext, (Option.some.inj hh).symm⟩
  · exact .inr hh

/-- What a handle was on, it is on. -/
theorem target?_push_of_some (hpush : s'.handles = s.handles.push { signal := y })
    (hh : s.target? h = some x) : s'.target? h = some x :=
  (target?_push_of_lt hpush (target?_isSome_iff.1 ⟨x, hh⟩)).trans hh

namespace Traces

variable (ht : Traces us s)
include ht

theorem next_eq : s.next = ⟨(makings us).length⟩ := SignalHandle.ext ht.count

/-- What is told of a signal is told of it still when a handle on it was made, unless it was made as
a child. -/
theorem told_make (hu : Makes u = true) (hpush : s'.handles = s.handles.push { signal := y })
    (htold : Told us s x st) (hx : ∀ a, u = child a → x ≠ y) : Told (us ++ [u]) s' x st where
  flag := by
    rw [htold.flag]
    refine exists_congr fun g => ?_
    rw [cancel_mem_make us hu]
    refine and_congr_right fun hg => ?_
    rw [target?_push_of_lt hpush (ht.used g (.inl hg))]
  link p := by
    rw [htold.link]
    constructor
    · rintro ⟨a, b, hmade, hb, ha⟩
      have hb' := target?_isSome_iff.1 ⟨_, hb⟩
      have ha' := target?_isSome_iff.1 ⟨_, ha⟩
      exact ⟨a, b, maker?_append [u] hmade, (target?_push_of_lt hpush hb').trans hb,
        (target?_push_of_lt hpush ha').trans ha⟩
    · rintro ⟨a, b, hmade, hb, ha⟩
      rw [maker?_make us hu, ← ht.next_eq] at hmade
      rw [target?_push hpush] at hb
      by_cases hnext : b = s.next
      · rw [if_pos hnext] at hmade hb
        exact absurd (Option.some.inj hb).symm (hx a (Option.some.inj hmade))
      · rw [if_neg hnext] at hmade hb
        rw [target?_push_of_lt hpush (ht.children a b hmade)] at ha
        exact ⟨a, b, hmade, hb, ha⟩

/-- The new handle is there, and the others are as they were. -/
theorem live_make (hu : Makes u = true) (hpush : s'.handles = s.handles.push { signal := y })
    (h : SignalHandle) :
    (s'.signal? h).isSome = true ↔ h.id < s'.handles.size ∧ drop h ∉ us ++ [u] := by
  rw [signal?_push hpush, lt_size_push hpush, drop_mem_make us hu]
  by_cases hnext : h = s.next
  · have hdrop : drop h ∉ us := by
      intro hh
      have hold := ht.used h (.inr hh)
      rw [hnext] at hold
      exact Nat.lt_irrefl _ hold
    rw [if_pos hnext]
    exact iff_of_true rfl ⟨.inl hnext, hdrop⟩
  · rw [if_neg hnext, or_iff_right hnext]
    exact ht.live h

theorem clones_make (hu : Makes u = true) (hpush : s'.handles = s.handles.push { signal := y })
    (hclone : ∀ a, u = clone a → s.target? a = some y)
    (hmade : maker? (us ++ [u]) b = some (clone a)) :
    ∃ x, s'.target? a = some x ∧ s'.target? b = some x := by
  rw [maker?_make us hu, ← ht.next_eq] at hmade
  split at hmade
  · next hnext =>
    have ha := hclone a (Option.some.inj hmade)
    exact ⟨y, target?_push_of_some hpush ha, hnext ▸ target?_push_self hpush⟩
  · obtain ⟨x, ha, hb⟩ := ht.clones a b hmade
    exact ⟨x, target?_push_of_some hpush ha, target?_push_of_some hpush hb⟩

theorem together_make (hpush : s'.handles = s.handles.push { signal := y })
    (htogether : ∀ b, s.target? b = some y →
      Reaches (us ++ [u]) b s.next ∧ Reaches (us ++ [u]) s.next b)
    (ha : s'.target? a = some x) (hb : s'.target? b = some x) : Reaches (us ++ [u]) a b := by
  rcases target?_push_cases hpush ha with ⟨rfl, rfl⟩ | ha'
  · rcases target?_push_cases hpush hb with ⟨rfl, -⟩ | hb'
    · exact .refl
    · exact (htogether b hb').2
  · rcases target?_push_cases hpush hb with ⟨rfl, rfl⟩ | hb'
    · exact (htogether a ha').1
    · exact (ht.together a b x ha' hb').append [u]

/-- A handle is made. -/
theorem make (hu : Makes u = true) (hpush : s'.handles = s.handles.push { signal := y })
    (hordered : s'.signals.Ordered) (hsize : s.signals.states.size ≤ s'.signals.states.size)
    (hy : y.id < s'.signals.states.size) (hclone : ∀ a, u = clone a → s.target? a = some y)
    (hchild : ∀ a, u = child a → a.id < s.handles.size)
    (htogether : ∀ b, s.target? b = some y →
      Reaches (us ++ [u]) b s.next ∧ Reaches (us ++ [u]) s.next b)
    (htold : ∀ x, s'.Held x →
      ∃ st, s'.signals.states[x.id]? = some st ∧ Told (us ++ [u]) s' x st) :
    Traces (us ++ [u]) s' where
  ordered := hordered
  count := by
    rw [hpush, Array.size_push, ht.count, makings_make us hu, List.length_append]
    rfl
  bounded h x hx := by
    rcases target?_push_cases hpush hx with ⟨-, rfl⟩ | hx'
    · exact hy
    · exact Nat.lt_of_lt_of_le (ht.bounded h x hx') hsize
  used h hh := by
    rw [cancel_mem_make us hu, drop_mem_make us hu] at hh
    exact (lt_size_push hpush).2 (.inr (ht.used h hh))
  live := ht.live_make hu hpush
  clones a b hmade := ht.clones_make hu hpush hclone hmade
  children a b hmade := by
    rw [maker?_make us hu, ← ht.next_eq] at hmade
    refine (lt_size_push hpush).2 (.inr ?_)
    split at hmade
    · exact hchild a (Option.some.inj hmade)
    · exact ht.children a b hmade
  together a b x ha hb := ht.together_make hpush htogether ha hb
  told := htold

end Traces

/-- Another handle on a signal leads to no other signals. -/
theorem Held.of_add (hy : s.Held y) (held : (s.add y).Held x) : s.Held x := by
  refine held.of_links (fun h x on => ?_) fun _ st _ found => ⟨st, found, rfl⟩
  rw [signal?_push rfl] at on
  split at on
  · cases on
    exact hy
  · exact .handle on

/-- A handle is cloned. -/
theorem Traces.clone (ht : Traces us s) (on : s.signal? h = some y) :
    Traces (us ++ [.clone h]) (s.add y) := by
  have hh := target?_of_signal? on
  have hmade : maker? (us ++ [.clone h]) s.next = some (.clone h) := by
    rw [maker?_make us rfl, if_pos ht.next_eq]
  refine ht.make rfl rfl ht.ordered (Nat.le_refl _) (ht.bounded h y hh) ?_ ?_ ?_ ?_
  · intro a ha
    cases ha
    exact hh
  · intro a ha
    cases ha
  · intro b hb
    have hbh := (ht.together b h y hb hh).append [HandleUse.clone h]
    have hhb := (ht.together h b y hh hb).append [HandleUse.clone h]
    exact ⟨hbh.tail (.toClone hmade), hhb.head (.fromClone hmade)⟩
  · intro x held
    obtain ⟨st, found, htold⟩ := ht.told x (Held.of_add (.handle on) held)
    exact ⟨st, found, ht.told_make rfl rfl htold fun a ha => by cases ha⟩

/-! ## Making a signal -/

/-- A signal is made, as a child of another one or of none, with a handle on it. -/
def grow (s : SignalHandles) (st : SignalState) : SignalHandles :=
  { s with signals := ⟨s.signals.states.push st⟩ }.add ⟨s.signals.states.size⟩

theorem Held.of_grow (ht : Traces us s) (hst : ∀ p, st.parent? = some p → s.Held p)
    (held : (s.grow st).Held x) :
    x = ⟨s.signals.states.size⟩ ∨
      s.Held x ∧ (s.grow st).signals.states[x.id]? = s.signals.states[x.id]? := by
  -- what was there before is where it was
  have hold {x : Signal} (hx : s.Held x) :
      (s.grow st).signals.states[x.id]? = s.signals.states[x.id]? := by
    obtain ⟨st', found, -⟩ := ht.told x hx
    have hlt := (Array.getElem?_eq_some_iff.1 found).1
    show (s.signals.states.push st)[x.id]? = _
    rw [Array.getElem?_push, if_neg (by omega)]
  have hcases : x = ⟨s.signals.states.size⟩ ∨ s.Held x := by
    induction held with
    | @handle h x on =>
      have on' : (if h = s.next then some ⟨s.signals.states.size⟩ else s.signal? h) = some x :=
        (signal?_push rfl h).symm.trans on
      split at on'
      · exact .inl (Option.some.inj on').symm
      · exact .inr (.handle on')
    | @parent x p st' _ found link ih =>
      obtain rfl | hx := ih
      · have hnew : (s.signals.states.push st)[s.signals.states.size]? = some st' := found
        rw [Array.getElem?_push_size] at hnew
        cases hnew
        exact .inr (hst p link)
      · rw [hold hx] at found
        exact .inr (hx.parent found link)
  exact hcases.imp id fun hx => ⟨hx, hold hx⟩

/-- No handle is on a signal that is to be made. -/
theorem Traces.fresh (ht : Traces us s) (h : SignalHandle) :
    s.target? h ≠ some ⟨s.signals.states.size⟩ :=
  fun hh => Nat.lt_irrefl _ (ht.bounded h _ hh)

/-- What is told of a signal that has just been made: it is not cancelled, and has a parent if it
was made as a child. -/
theorem Traces.told_grow (ht : Traces us s) (hu : Makes u = true) (hst : st.cancelled = false)
    (hlink : ∀ p, st.parent? = some p ↔ ∃ a, u = child a ∧ s.target? a = some p)
    (hchild : ∀ a, u = child a → a.id < s.handles.size) :
    Told (us ++ [u]) (s.grow st) ⟨s.signals.states.size⟩ st := by
  have hpush : (s.grow st).handles = s.handles.push { signal := ⟨s.signals.states.size⟩ } := rfl
  refine ⟨?_, fun p => ?_⟩
  · rw [hst]
    refine iff_of_false Bool.false_ne_true ?_
    rintro ⟨g, hg, hgx⟩
    rw [cancel_mem_make us hu] at hg
    rw [target?_push_of_lt hpush (ht.used g (.inl hg))] at hgx
    exact ht.fresh g hgx
  · rw [hlink]
    constructor
    · rintro ⟨a, rfl, ha⟩
      refine ⟨a, s.next, ?_, target?_push_self hpush, target?_push_of_some hpush ha⟩
      rw [maker?_make us rfl, if_pos ht.next_eq]
    · rintro ⟨a, b, hmade, hb, ha⟩
      rcases target?_push_cases hpush hb with ⟨rfl, -⟩ | hb'
      · rw [maker?_make us hu, if_pos ht.next_eq] at hmade
        cases hmade
        rw [target?_push_of_lt hpush (hchild a rfl)] at ha
        exact ⟨a, rfl, ha⟩
      · exact absurd hb' (ht.fresh b)

/-- A signal of its own is made, or a child. -/
theorem Traces.grow (ht : Traces us s) (hu : Makes u = true) (hclone : ∀ a, u ≠ HandleUse.clone a)
    (hst : st.cancelled = false)
    (hlink : ∀ p, st.parent? = some p ↔ ∃ a, u = child a ∧ s.target? a = some p)
    (hheld : ∀ p, st.parent? = some p → s.Held p)
    (hchild : ∀ a, u = child a → a.id < s.handles.size) :
    Traces (us ++ [u]) (s.grow st) := by
  have hsize : (s.grow st).signals.states.size = s.signals.states.size + 1 := Array.size_push ..
  refine ht.make hu rfl ?_ ?_ ?_ ?_ hchild ?_ ?_
  · refine Signals.ordered_push ht.ordered fun p hp => ?_
    obtain ⟨st', found, -⟩ := ht.told p (hheld p hp)
    exact (Array.getElem?_eq_some_iff.1 found).1
  · rw [hsize]
    omega
  · rw [hsize]
    exact Nat.lt_succ_self _
  · exact fun a ha => absurd ha (hclone a)
  · exact fun b hb => absurd hb (ht.fresh b)
  · intro x held
    obtain rfl | ⟨hx, hsame⟩ := Held.of_grow ht hheld held
    · exact ⟨st, Array.getElem?_push_size, ht.told_grow hu hst hlink hchild⟩
    · obtain ⟨st', found, htold⟩ := ht.told x hx
      refine ⟨st', hsame.trans found, ht.told_make hu rfl htold fun a ha => ?_⟩
      rintro rfl
      exact Nat.lt_irrefl _ (Array.getElem?_eq_some_iff.1 found).1

/-! ## Cancelling, dropping and giving up -/

/-- Nothing is made: the handles are on the signals that they were on. -/
theorem Traces.other {us' : List HandleUse} (ht : Traces us s)
    (hmakings : makings us' = makings us) (htarget : ∀ h, s'.target? h = s.target? h)
    (hsize : s'.signals.states.size = s.signals.states.size) (hordered : s'.signals.Ordered)
    (hhandles : s'.handles.size = s.handles.size)
    (hused : ∀ h, cancel h ∈ us' ∨ drop h ∈ us' → h.id < s.handles.size)
    (hlive : ∀ h, (s'.signal? h).isSome = true ↔ h.id < s.handles.size ∧ drop h ∉ us')
    (htold : ∀ x, s'.Held x → ∃ st, s'.signals.states[x.id]? = some st ∧ Told us' s' x st) :
    Traces us' s' := by
  have hmaker (h : SignalHandle) : maker? us' h = maker? us h := by
    rw [maker?, hmakings, maker?]
  exact {
    ordered := hordered
    count := by rw [hhandles, hmakings, ht.count]
    bounded := fun h x hx => by
      rw [hsize]
      exact ht.bounded h x ((htarget h).symm.trans hx)
    used := fun h hh => by
      rw [hhandles]
      exact hused h hh
    live := fun h => by
      rw [hhandles]
      exact hlive h
    clones := fun a b hmade => by
      obtain ⟨x, ha, hb⟩ := ht.clones a b ((hmaker b).symm.trans hmade)
      exact ⟨x, (htarget a).trans ha, (htarget b).trans hb⟩
    children := fun a b hmade => by
      rw [hhandles]
      exact ht.children a b ((hmaker b).symm.trans hmade)
    together := fun a b x ha hb => by
      rw [htarget] at ha hb
      exact (ht.together a b x ha hb).mono fun h m hm => (hmaker h).trans hm
    told := htold }

/-- What is told of the link of a signal is told of it still. -/
theorem Told.other {us' : List HandleUse} {st' : SignalState} (htold : Told us s x st)
    (hmakings : makings us' = makings us) (htarget : ∀ h, s'.target? h = s.target? h)
    (hlink : st'.parent? = st.parent?)
    (hflag : st'.cancelled = true ↔ ∃ g, HandleUse.cancel g ∈ us' ∧ s.target? g = some x) :
    Told us' s' x st' where
  flag := by
    rw [hflag]
    refine exists_congr fun g => ?_
    rw [htarget]
  link p := by
    rw [hlink, htold.link]
    refine exists_congr fun a => exists_congr fun b => ?_
    rw [maker?, maker?, hmakings, htarget, htarget]

/-- A signal is cancelled through a handle. -/
theorem Traces.cancel (ht : Traces us s) (on : s.signal? h = some y) :
    Traces (us ++ [.cancel h]) { s with signals := s.signals.cancel y } := by
  have hh := target?_of_signal? on
  have hmakings := makings_other us (u := .cancel h) rfl
  have hfound (i : Nat) : (s.signals.cancel y).states[i]? =
      if y.id = i then s.signals.states[i]?.map fun st => { st with cancelled := true }
      else s.signals.states[i]? := Array.getElem?_modify
  have hmem (g : SignalHandle) :
      HandleUse.cancel g ∈ us ++ [.cancel h] ↔ HandleUse.cancel g ∈ us ∨ g = h := by
    rw [List.mem_append, List.mem_singleton, HandleUse.cancel.injEq]
  have hdrop (g : SignalHandle) : drop g ∈ us ++ [.cancel h] ↔ drop g ∈ us := by
    rw [List.mem_append, List.mem_singleton, or_iff_left nofun]
  -- links stay, so the same signals are led to
  have hheld {x : Signal} (held : Held { s with signals := s.signals.cancel y } x) : s.Held x := by
    refine held.of_links (fun _ _ on => .handle on) fun x st _ found => ?_
    have found : (s.signals.cancel y).states[x.id]? = some st := found
    rw [hfound] at found
    split at found
    · obtain ⟨st', found', rfl⟩ := Option.map_eq_some_iff.1 found
      exact ⟨st', found', rfl⟩
    · exact ⟨st, found, rfl⟩
  refine ht.other hmakings (fun _ => rfl) Array.size_modify (Signals.ordered_cancel ht.ordered y) rfl
    ?used ?live ?told
  case used =>
    intro g hg
    rw [hmem, hdrop, or_right_comm] at hg
    obtain hg | rfl := hg
    · exact ht.used g hg
    · exact target?_isSome_iff.1 ⟨y, hh⟩
  case live =>
    intro g
    rw [hdrop]
    exact ht.live g
  case told =>
    intro x held
    obtain ⟨st, found, htold⟩ := ht.told x (hheld held)
    have hx := hfound x.id
    rw [found] at hx
    by_cases hxy : x = y
    · subst hxy
      rw [if_pos rfl] at hx
      refine ⟨_, hx, htold.other hmakings (fun _ => rfl) rfl ?_⟩
      exact iff_of_true rfl ⟨h, (hmem h).2 (.inr rfl), hh⟩
    · rw [if_neg fun he => hxy (congrArg Signal.mk he.symm)] at hx
      refine ⟨_, hx, htold.other hmakings (fun _ => rfl) rfl ?_⟩
      rw [htold.flag]
      refine exists_congr fun g => and_congr_left fun hg => ?_
      rw [hmem, or_iff_left]
      rintro rfl
      exact hxy (Option.some.inj (hg.symm.trans hh))

/-- A handle is dropped, before anything is given up. -/
def leave (s : SignalHandles) (h : SignalHandle) (x : Signal) : SignalHandles :=
  { s with handles := s.handles.setIfInBounds h.id { signal := x, live := false } }

theorem getElem?_leave (on : s.signal? h = some x) (g : SignalHandle) :
    (s.leave h x).handles[g.id]? = if g = h then some ⟨x, false⟩ else s.handles[g.id]? := by
  have hlt : h.id < s.handles.size :=
    (Array.getElem?_eq_some_iff.1 (signal?_eq_some_iff.1 on)).1
  show (s.handles.setIfInBounds h.id { signal := x, live := false })[g.id]? = _
  by_cases he : g = h
  · rw [if_pos he, he, Array.getElem?_setIfInBounds_self_of_lt hlt]
  · rw [if_neg he, Array.getElem?_setIfInBounds_ne fun hid => he (SignalHandle.ext hid.symm)]

theorem target?_leave (on : s.signal? h = some x) (g : SignalHandle) :
    (s.leave h x).target? g = s.target? g := by
  rw [target?, getElem?_leave on]
  split
  · next he =>
    rw [he, target?_of_signal? on]
    rfl
  · rfl

theorem signal?_leave (on : s.signal? h = some x) (g : SignalHandle) :
    (s.leave h x).signal? g = if g = h then none else s.signal? g := by
  rw [signal?, getElem?_leave on]
  by_cases he : g = h
  · rw [if_pos he, if_pos he]
    rfl
  · rw [if_neg he, if_neg he, signal?]

theorem Held.of_leave (on : s.signal? h = some x) (held : (s.leave h x).Held y) : s.Held y := by
  refine held.of_links (fun g y hg => ?_) fun _ st _ found => ⟨st, found, rfl⟩
  rw [signal?_leave on] at hg
  split at hg
  · cases hg
  · exact .handle hg

theorem Traces.leave (ht : Traces us s) (on : s.signal? h = some x) :
    Traces (us ++ [.drop h]) (s.leave h x) := by
  have hmakings := makings_other us (u := .drop h) rfl
  have hmem (g : SignalHandle) :
      HandleUse.drop g ∈ us ++ [.drop h] ↔ HandleUse.drop g ∈ us ∨ g = h := by
    rw [List.mem_append, List.mem_singleton, HandleUse.drop.injEq]
  have hcancel (g : SignalHandle) :
      HandleUse.cancel g ∈ us ++ [.drop h] ↔ HandleUse.cancel g ∈ us := by
    rw [List.mem_append, List.mem_singleton, or_iff_left nofun]
  refine ht.other hmakings (target?_leave on) rfl ht.ordered Array.size_setIfInBounds
    ?used ?live ?told
  case used =>
    intro g hg
    rw [hcancel, hmem, ← or_assoc] at hg
    obtain hg | rfl := hg
    · exact ht.used g hg
    · exact target?_isSome_iff.1 ⟨x, target?_of_signal? on⟩
  case live =>
    intro g
    rw [signal?_leave on, hmem]
    split
    · next he => exact iff_of_false Bool.false_ne_true fun hg => hg.2 (.inr he)
    · next he => rw [or_iff_left he, ht.live]
  case told =>
    intro y held
    obtain ⟨st, found, htold⟩ := ht.told y (held.of_leave on)
    refine ⟨st, found, htold.other hmakings (target?_leave on) rfl ?_⟩
    rw [htold.flag]
    exact exists_congr fun g => and_congr_left fun _ => (hcancel g).symm

/-- A signal is given up that nothing refers to. -/
theorem Traces.forget (ht : Traces us s) (hx : s.refersTo x = false) :
    Traces us { s with signals := s.signals.forget x } := by
  have hfound {y : Signal} (hy : s.Held y) :
      (s.signals.states.setIfInBounds x.id {})[y.id]? = s.signals.states[y.id]? := by
    refine Array.getElem?_setIfInBounds_ne fun he => ?_
    have hxy : x = y := congrArg Signal.mk he
    rw [hxy, hy.refersTo] at hx
    cases hx
  have hheld {y : Signal} (held : Held { s with signals := s.signals.forget x } y) : s.Held y :=
    held.of_links (fun _ _ on => .handle on) fun _ st hy found =>
      ⟨st, (hfound hy).symm.trans found, rfl⟩
  refine ht.other rfl (fun _ => rfl) Array.size_setIfInBounds ?_ rfl ht.used ht.live ?_
  · intro i st p found link
    have found : (s.signals.states.setIfInBounds x.id {})[i]? = some st := found
    rw [Array.getElem?_setIfInBounds] at found
    split at found
    · split at found
      · cases found
        cases link
      · cases found
    · exact ht.ordered i st p found link
  · intro y held
    obtain ⟨st, found, htold⟩ := ht.told y (hheld held)
    exact ⟨st, (hfound (hheld held)).trans found,
      htold.other rfl (fun _ => rfl) rfl htold.flag⟩

/-- Giving up what nothing refers to leaves what the handles lead to as it is. -/
theorem Traces.release (ht : Traces us s) (n : Nat) (x : Signal) : Traces us (s.release n x) := by
  induction n generalizing s x with
  | zero => exact ht
  | succ n ih =>
    rw [SignalHandles.release]
    split
    · exact ht
    · next hx =>
      have hforget := ht.forget (Bool.eq_false_iff.2 hx)
      dsimp only
      split
      · exact ih hforget _
      · exact hforget

/-! ## All uses -/

/-- Before any use there is nothing. -/
theorem traces_nil : Traces [] {} where
  ordered i st p found _ := by cases found
  count := rfl
  bounded h x hx := by cases hx
  used h hh := by cases hh <;> next hmem => cases hmem
  live h := iff_of_false Bool.false_ne_true fun hh => Nat.not_lt_zero _ hh.1
  clones a b hmade := by cases hmade
  children a b hmade := by cases hmade
  together a b x ha _ := by cases ha
  told x held := by
    suffices h : False from h.elim
    induction held with
    | handle on => cases on
    | parent _ _ _ ih => exact ih

/-- **One use** adds to what the uses tell. -/
theorem Traces.use (ht : Traces us s) (hs : s.use? u = some s') : Traces (us ++ [u]) s' := by
  cases u with
  | create =>
    cases hs
    have hgrow : Traces (us ++ [.create]) (s.grow {}) :=
      ht.grow rfl nofun rfl (fun p => iff_of_false nofun fun ⟨_, he, _⟩ => by cases he) nofun nofun
    exact hgrow
  | clone h =>
    obtain ⟨x, on, rfl⟩ := Option.map_eq_some_iff.1 hs
    exact ht.clone on
  | child h =>
    obtain ⟨x, on, rfl⟩ := Option.map_eq_some_iff.1 hs
    have hh := target?_of_signal? on
    suffices hgrow : Traces (us ++ [.child h]) (s.grow { parent? := some x }) from hgrow
    refine ht.grow rfl nofun rfl (fun p => ?_) (fun p hp => ?_) fun a ha => ?_
    · constructor
      · rintro ⟨⟩
        exact ⟨h, rfl, hh⟩
      · rintro ⟨a, ⟨⟩, ha⟩
        exact hh.symm.trans ha
    · cases hp
      exact .handle on
    · cases ha
      exact target?_isSome_iff.1 ⟨x, hh⟩
  | cancel h =>
    obtain ⟨x, on, rfl⟩ := Option.map_eq_some_iff.1 hs
    exact ht.cancel on
  | drop h =>
    obtain ⟨x, on, rfl⟩ := Option.map_eq_some_iff.1 hs
    exact (ht.leave on).release _ x

/-- **All uses**, one after the other. -/
theorem Traces.useAll (ht : Traces us s) {vs : List HandleUse} (hs : s.useAll? vs = some s') :
    Traces (us ++ vs) s' := by
  induction vs generalizing us s with
  | nil =>
    cases hs
    rwa [List.append_nil]
  | cons v vs ih =>
    obtain ⟨t, ht', hs⟩ := Option.bind_eq_some_iff.1 hs
    have h := ih (ht.use ht') hs
    rwa [List.append_assoc] at h

/-- What reaches what is not changed by a use that makes no handle. -/
theorem reaches_other (hu : Makes u = false) : Reaches (us ++ [u]) a b ↔ Reaches us a b :=
  ⟨fun hr => hr.mono fun h _ hm => (maker?_other us hu h).symm.trans hm, fun hr => hr.append [u]⟩

/-- **Cancellation follows the tree of handles.**  After any uses of handles, each handle that was
made and not dropped tells that its signal is cancelled exactly if at some time it was cancelled
through the handle itself, through a clone of it, or through an ancestor or a clone of one, whatever
has been dropped since.  So cancelling through a handle changes what is told by the handles that it
reaches and by no others, and what is cancelled stays so. -/
theorem cancellation_tree (us : List HandleUse) (s : SignalHandles) (hs : useAll? {} us = some s) :
    (∀ h, (s.isCancelled? h).isSome = true ↔ (maker? us h).isSome = true ∧ drop h ∉ us) ∧
    (∀ h c, s.isCancelled? h = some c → (c = true ↔ ∃ g, cancel g ∈ us ∧ Reaches us g h)) ∧
    (∀ g h c, (s.isCancelled? g).isSome = true → s.isCancelled? h = some c →
      ∃ s' c', s.use? (cancel g) = some s' ∧ s'.isCancelled? h = some c' ∧
        (c' = true ↔ c = true ∨ Reaches us g h)) ∧
    ∀ vs s' h c', s.useAll? vs = some s' → s.isCancelled? h = some true →
      s'.isCancelled? h = some c' → c' = true := by
  have ht : Traces us s := traces_nil.useAll hs
  refine ⟨fun h => ?_, fun h c => ht.isCancelled?_iff, fun g h c hg hc => ?_,
    fun vs s' h c' hs' hc hc' => ?_⟩
  · rw [isCancelled?, Option.isSome_map, ht.live, ht.count, maker?]
    simp
  · rw [isCancelled?, Option.isSome_map] at hg
    obtain ⟨y, on⟩ := Option.isSome_iff_exists.1 hg
    obtain ⟨x, honx, -⟩ := Option.map_eq_some_iff.1 hc
    have hc' : isCancelled? { s with signals := s.signals.cancel y } h =
      some ((s.signals.cancel y).isCancelled x) := Option.map_eq_some_iff.2 ⟨x, honx, rfl⟩
    refine ⟨_, _, Option.map_eq_some_iff.2 ⟨y, on, rfl⟩, hc', ?_⟩
    rw [(ht.cancel on).isCancelled?_iff hc', ht.isCancelled?_iff hc]
    have hother {a b : SignalHandle} : Reaches (us ++ [cancel g]) a b ↔ Reaches us a b :=
      reaches_other rfl
    simp only [List.mem_append, List.mem_singleton, HandleUse.cancel.injEq, hother]
    constructor
    · rintro ⟨g', hg' | rfl, hr⟩
      · exact .inl ⟨g', hg', hr⟩
      · exact .inr hr
    · rintro (⟨g', hg', hr⟩ | hr)
      · exact ⟨g', .inl hg', hr⟩
      · exact ⟨g, .inr rfl, hr⟩
  · obtain ⟨g, hg, hr⟩ := (ht.isCancelled?_iff hc).1 rfl
    exact ((ht.useAll hs').isCancelled?_iff hc').2
      ⟨g, List.mem_append_left vs hg, hr.append vs⟩

/-- A grandchild is cancelled through a clone of the handle that its parent was made from, when both
that handle and the one of the parent are gone; it stays so when the clone is dropped too. -/
theorem grandchild_cancelled :
    let us : List HandleUse := [.create, .child ⟨0⟩, .clone ⟨0⟩, .drop ⟨0⟩, .child ⟨1⟩, .drop ⟨1⟩]
    (∃ s s', useAll? {} us = some s ∧ s.isCancelled? ⟨3⟩ = some false ∧
      s.use? (.cancel ⟨2⟩) = some s' ∧ s'.isCancelled? ⟨3⟩ = some true) ∧
    ∃ s s', useAll? {} (us ++ [.cancel ⟨2⟩]) = some s ∧ s.isCancelled? ⟨3⟩ = some true ∧
      s.useAll? [.drop ⟨2⟩] = some s' ∧ s'.isCancelled? ⟨3⟩ = some true := by
  intro us
  have hclone : PassesOn us ⟨2⟩ ⟨0⟩ := .fromClone rfl
  have hchild : PassesOn us ⟨0⟩ ⟨1⟩ := .toChild rfl
  have hgrandchild : PassesOn us ⟨1⟩ ⟨3⟩ := .toChild rfl
  have hreaches : Reaches us ⟨2⟩ ⟨3⟩ := .head hclone (.head hchild (.single hgrandchild))
  constructor
  · obtain ⟨s, hs⟩ : ∃ s, useAll? {} us = some s :=
      Option.isSome_iff_exists.1 (by decide +kernel)
    obtain ⟨hlive, htells, hcancel, -⟩ := cancellation_tree us s hs
    obtain ⟨c, hc⟩ := Option.isSome_iff_exists.1 ((hlive ⟨3⟩).2 ⟨rfl, by decide⟩)
    have hfalse : c = false := by
      rw [← Bool.not_eq_true, htells ⟨3⟩ c hc]
      rintro ⟨g, hg, -⟩
      simp [us] at hg
    obtain ⟨s', c', hs', hc', hiff⟩ :=
      hcancel ⟨2⟩ ⟨3⟩ c ((hlive ⟨2⟩).2 ⟨rfl, by decide⟩) hc
    rw [hiff.2 (.inr hreaches)] at hc'
    exact ⟨s, s', hs, hfalse ▸ hc, hs', hc'⟩
  · obtain ⟨c', hrun⟩ : ∃ c', ((useAll? {} (us ++ [.cancel ⟨2⟩])).bind fun s =>
        (s.useAll? [.drop ⟨2⟩]).bind (·.isCancelled? ⟨3⟩)) = some c' :=
      Option.isSome_iff_exists.1 (by decide +kernel)
    obtain ⟨s, hs, hrun⟩ := Option.bind_eq_some_iff.1 hrun
    obtain ⟨s', hs', hc'⟩ := Option.bind_eq_some_iff.1 hrun
    obtain ⟨hlive, htells, -, hstays⟩ := cancellation_tree (us ++ [.cancel ⟨2⟩]) s hs
    obtain ⟨c, hc⟩ := Option.isSome_iff_exists.1 ((hlive ⟨3⟩).2 ⟨rfl, by decide⟩)
    have htrue : c = true :=
      (htells ⟨3⟩ c hc).2 ⟨⟨2⟩, List.mem_append_right us (List.mem_singleton_self _),
        hreaches.append _⟩
    rw [htrue] at hc
    exact ⟨s, s', hs, hc, hs', hstays _ s' ⟨3⟩ c' hs' hc hc' ▸ hc'⟩

end SignalHandles
end ScriptShell
