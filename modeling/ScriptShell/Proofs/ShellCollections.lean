import Mathlib.Data.List.Induction
import ScriptShell.Proofs.PropertyWrites

/-! # The collections as finite maps

From what collections keep of values (`Collections.kept`) one can tell what they hold after any
writes: what the last accepted write to a name has kept (`Collections.lastKept`), or else what was
there at the start.  `World.get_afterWrites` is the induction over writes.  It goes through because
what is kept depends on the state by the names of the flags only, and these never change
(`Collections.isSome_holds_option`). -/

namespace ScriptShell

/-! ## What is kept last -/

/-- A write to a collection. -/
structure CollectionWrite where
  /-- The collection. -/
  kind : CollectionKind
  /-- The key. -/
  key : HostValue
  /-- The value. -/
  value : HostValue

namespace Collections

/-- What the last accepted write to a name has kept; `none` if there was no such write. -/
def lastKept (c : Collections) (kind : CollectionKind) (name : String)
    (writes : List CollectionWrite) : Option (Option HostValue) :=
  writes.reverse.findSome? fun x =>
    if x.kind = kind ∧ x.key.asText? = some name then c.kept kind name x.value else none

/-- What a name holds after writes: what was kept last, or else what it held before. -/
def holds (c : Collections) (kind : CollectionKind) (name : String)
    (writes : List CollectionWrite) : Option HostValue :=
  (c.lastKept kind name writes).getD (c.get kind (.text name))

end Collections

/-- The state of the process after writes, each of them accepted or refused. -/
def World.afterWrites (w : World) (writes : List CollectionWrite) : World :=
  writes.foldl (fun w x => (w.perform (x.kind.write x.key x.value)).2) w

variable {c c' : Collections} {kind : CollectionKind} {key v : HostValue} {name : String}

namespace Collections

/-! ## One write -/

/-- The same write through the table of the collection. -/
theorem set_collection (hset : c.set kind key v = .ok c') :
    (PropertyTable.collection kind).set { collections := c } key v = .ok { collections := c' } :=
  congrArg (Except.map fun c : Collections => ({ collections := c } : HostState)) hset

theorem eq_of_mem_entries {kind' : CollectionKind} {name' : String} {e : HostEntry}
    (he : e ∈ (PropertyTable.collection kind).entries name)
    (he' : e ∈ (PropertyTable.collection kind').entries name') : kind = kind' ∧ name = name' := by
  cases kind <;> cases kind' <;> simp_all [PropertyTable.entries]

/-- All other names of all collections hold what they held before. -/
theorem get_of_set {kind' : CollectionKind} {name' : String} (hk : key.asText? = some name)
    (hset : c.set kind key v = .ok c') (hother : ¬(kind = kind' ∧ name = name')) :
    c'.get kind' (.text name') = c.get kind' (.text name') := by
  have hname : (PropertyTable.collection kind).nameOf key = name := congrArg (Option.getD · "") hk
  have hkeeps e := PropertyTable.content?_of_set (e := e) (set_collection hset)
  rw [hname] at hkeeps
  have hget : (PropertyTable.collection kind').get { collections := c' } (.text name') =
      (PropertyTable.collection kind').get { collections := c } (.text name') :=
    PropertyTable.get_congr
      (fun e he => hkeeps e fun he' => hother (eq_of_mem_entries he' he))
      fun i => hkeeps _ (PropertyTable.line_not_mem_entries _ name i)
  exact hget

/-! ## More writes -/

theorem lastKept_concat (c : Collections) (kind : CollectionKind) (name : String)
    (writes : List CollectionWrite) (x : CollectionWrite) :
    c.lastKept kind name (writes ++ [x]) =
      (if x.kind = kind ∧ x.key.asText? = some name then c.kept kind name x.value else none).or
        (c.lastKept kind name writes) := by
  rw [lastKept, List.reverse_concat, List.findSome?_cons]
  split
  · next hx => rw [hx, Option.some_or]
  · next hx => rw [hx, Option.none_or, lastKept]

theorem kept_of_lastKept {writes : List CollectionWrite} {kept : Option HostValue}
    (hlast : c.lastKept kind name writes = some kept) : ∃ v, c.kept kind name v = some kept := by
  obtain ⟨x, -, hx⟩ := List.exists_of_findSome?_eq_some hlast
  split at hx
  · exact ⟨x.value, hx⟩
  · cases hx

/-- What is kept of a flag is a flag, and it was known before. -/
theorem kept_option {kept : Option HostValue} (hv : c.kept .option name v = some kept) :
    (c.get .option (.text name)).isSome = true ∧ ∃ b, kept = some (.bool b) := by
  rw [Collections.kept] at hv
  split at hv
  · next hknown =>
    cases v with
    | bool b => exact ⟨hknown, b, (Option.some.inj hv).symm⟩
    | _ => cases hv
  · cases hv

/-- Flags are neither added nor removed. -/
theorem isSome_holds_option (c : Collections) (name : String) (writes : List CollectionWrite) :
    (c.holds .option name writes).isSome = (c.get .option (.text name)).isSome := by
  rw [holds]
  cases hlast : c.lastKept .option name writes with
  | none => rfl
  | some kept =>
    obtain ⟨v, hv⟩ := kept_of_lastKept hlast
    obtain ⟨hknown, b, rfl⟩ := kept_option hv
    exact hknown.symm

theorem kept_congr (hflags : (c'.get .option (.text name)).isSome =
    (c.get .option (.text name)).isSome) (kind : CollectionKind) (v : HostValue) :
    c'.kept kind name v = c.kept kind name v := by
  cases kind with
  | option => rw [kept, kept, hflags]
  | _ => rfl

/-- Only names that variables can have are ever added to the environment. -/
theorem isVariableName_of_holds {writes : List CollectionWrite} {x : HostValue}
    (hstart : (c.get .env (.text name)).isSome = true → IsVariableName name)
    (hx : c.holds .env name writes = some x) : IsVariableName name := by
  rw [holds] at hx
  cases hlast : c.lastKept .env name writes with
  | none =>
    rw [hlast] at hx
    exact hstart (Option.isSome_of_eq_some hx)
  | some kept =>
    obtain ⟨v, hv⟩ := kept_of_lastKept hlast
    rw [Collections.kept] at hv
    by_contra hname
    rw [if_neg hname] at hv
    cases hv

end Collections

/-! ## Any writes -/

namespace World

theorem perform_collection (w : World) (kind : CollectionKind) (key v : HostValue) :
    w.perform (kind.write key v) =
      match w.host.collections.set kind key v with
      | .ok c => (.ok (), { w with host := { w.host with collections := c } })
      | .error e => (.error e, w) := by
  rw [perform, CollectionKind.run_write]
  cases w.host.collections.set kind key v <;> rfl

theorem afterWrites_concat (w : World) (writes : List CollectionWrite) (x : CollectionWrite) :
    w.afterWrites (writes ++ [x]) =
      ((w.afterWrites writes).perform (x.kind.write x.key x.value)).2 :=
  List.foldl_concat ..

variable {w : World} {writes : List CollectionWrite}

/-- A write is accepted with what is kept of it, or it is refused and changes nothing. -/
theorem perform_cases (w : World) (x : CollectionWrite) :
    (∃ name kept c, x.key.asText? = some name ∧
      w.host.collections.kept x.kind name x.value = some kept ∧
      w.host.collections.set x.kind x.key x.value = .ok c ∧
      w.perform (x.kind.write x.key x.value) =
        (.ok (), { w with host := { w.host with collections := c } }) ∧
      c.get x.kind (.text name) = kept ∧
      (w.host.collections.env.vars.Ordered → c.env.vars.Ordered)) ∨
    ((∀ name, x.key.asText? = some name →
        w.host.collections.kept x.kind name x.value = none) ∧
      ∃ e, w.perform (x.kind.write x.key x.value) = (.error e, w)) := by
  rw [perform_collection]
  cases hk : x.key.asText? with
  | none =>
    obtain ⟨e, he⟩ := w.host.collections.set_of_no_text x.kind hk x.value
    rw [he]
    exact .inr ⟨nofun, e, rfl⟩
  | some name =>
    rcases w.host.collections.set_cases x.kind hk x.value with
      ⟨kept, c, hkept, hset, hget, hordered⟩ | ⟨hkept, e, he⟩
    · rw [hset]
      exact .inl ⟨name, kept, c, rfl, hkept, rfl, rfl, hget, hordered⟩
    · rw [he]
      exact .inr ⟨fun name' hname => Option.some.inj hname ▸ hkept, e, rfl⟩

/-- A collection takes the values that it keeps, under keys with text. -/
theorem perform_eq_ok_iff (w : World) (x : CollectionWrite) :
    (w.perform (x.kind.write x.key x.value)).1 = .ok () ↔
      ∃ name, x.key.asText? = some name ∧
        (w.host.collections.kept x.kind name x.value).isSome = true := by
  rcases w.perform_cases x with ⟨name, kept, c, hk, hkept, -, hp, -⟩ | ⟨hnone, e, hp⟩
  · rw [hp, hk]
    exact iff_of_true rfl ⟨name, rfl, by rw [hkept]; rfl⟩
  · rw [hp]
    refine iff_of_false nofun ?_
    rintro ⟨name, hk, hsome⟩
    rw [hnone name hk] at hsome
    cases hsome

/-- What a name holds after a write. -/
theorem get_perform (w : World) (x : CollectionWrite) (kind : CollectionKind) (name : String) :
    (w.perform (x.kind.write x.key x.value)).2.host.collections.get kind (.text name) =
      (if x.kind = kind ∧ x.key.asText? = some name then
        w.host.collections.kept kind name x.value else none).getD
        (w.host.collections.get kind (.text name)) := by
  rcases w.perform_cases x with ⟨written, kept, c, hk, hkept, hset, hp, hget, -⟩ | ⟨hnone, e, hp⟩
  · rw [hp, hk]
    by_cases hsame : x.kind = kind ∧ written = name
    · obtain ⟨rfl, rfl⟩ := hsame
      rw [if_pos ⟨rfl, rfl⟩, hkept]
      exact hget
    · rw [if_neg fun hs => hsame ⟨hs.1, Option.some.inj hs.2⟩]
      exact Collections.get_of_set hk hset hsame
  · rw [hp]
    split
    · next hsame =>
      obtain ⟨rfl, hk⟩ := hsame
      rw [hnone name hk]
      rfl
    · rfl

theorem ordered_perform (x : CollectionWrite) (hw : w.host.collections.env.vars.Ordered) :
    (w.perform (x.kind.write x.key x.value)).2.host.collections.env.vars.Ordered := by
  rcases w.perform_cases x with ⟨name, kept, c, -, -, -, hp, -, hordered⟩ | ⟨-, e, hp⟩
  · rw [hp]
    exact hordered hw
  · rw [hp]
    exact hw

theorem get_afterWrites (w : World) (writes : List CollectionWrite) (kind : CollectionKind)
    (name : String) : (w.afterWrites writes).host.collections.get kind (.text name) =
      w.host.collections.holds kind name writes := by
  induction writes using List.reverseRecOn generalizing kind name with
  | nil => rfl
  | append_singleton writes x ih =>
    -- the flags are those of the start, so the write is accepted as it would be there
    have hflags : ((w.afterWrites writes).host.collections.get .option (.text name)).isSome =
        (w.host.collections.get .option (.text name)).isSome := by
      rw [ih, Collections.isSome_holds_option]
    rw [afterWrites_concat, get_perform, ih, Collections.kept_congr hflags, Collections.holds,
      Collections.holds, Collections.lastKept_concat, Option.getD_or]

theorem ordered_afterWrites (hw : w.host.collections.env.vars.Ordered)
    (writes : List CollectionWrite) :
    (w.afterWrites writes).host.collections.env.vars.Ordered := by
  induction writes using List.reverseRecOn with
  | nil => exact hw
  | append_singleton writes x ih =>
    rw [afterWrites_concat]
    exact ordered_perform x ih

/-- The collections are finite maps.  After any writes, accepted or refused, a key reads as what the
last accepted write to its text has kept, or as at the start.  A write is accepted if its key has
text and something is kept of the value: text, decimal numbers and `nil` by variables and aliases,
booleans by flags that were there at the start.  No other flags and no other names of variables ever
come up, and the list of the variables has each of them once. -/
theorem collections_refine_maps (w : World) (hordered : w.host.collections.env.vars.Ordered)
    (hnames : ∀ e ∈ w.host.collections.env.vars.entries, IsVariableName e.1)
    (writes : List CollectionWrite) :
    let start := w.host.collections
    let c := (w.afterWrites writes).host.collections
    (∀ kind key, kind ≠ .history →
      c.get kind key = key.asText?.bind fun name => start.holds kind name writes) ∧
    (∀ x : CollectionWrite,
      ((w.afterWrites writes).perform (x.kind.write x.key x.value)).1 = .ok () ↔
        ∃ name, x.key.asText? = some name ∧ (start.kept x.kind name x.value).isSome = true) ∧
    (∀ name, (c.get .option (.text name)).isSome = (start.get .option (.text name)).isSome) ∧
    (∀ key x, c.get .option key = some x → ∃ b, x = .bool b) ∧
    (∀ e ∈ c.env.vars.entries, IsVariableName e.1) ∧
    (∀ name value, (name, value) ∈ c.env.vars.entries ↔
      c.get .env (.text name) = some (.text value)) ∧
    c.env.vars.keys.Nodup := by
  intro start c
  have hget : ∀ kind name, c.get kind (.text name) = start.holds kind name writes :=
    w.get_afterWrites writes
  have hflags (name : String) : (c.get .option (.text name)).isSome =
      (start.get .option (.text name)).isSome := by
    rw [hget, Collections.isSome_holds_option]
  -- the list is in order, so it has what can be looked up and nothing else
  have hlist (e : String × String) : e ∈ c.env.vars.entries ↔
      c.get .env (.text e.1) = some (.text e.2) :=
    (ordered_afterWrites hordered writes).mem_entries_iff.trans Environment.get_text_iff.symm
  refine ⟨fun kind key hkind => ?_, fun x => ?_, hflags, fun key x hx => ?_, fun e he => ?_,
    fun name value => hlist (name, value), (ordered_afterWrites hordered writes).nodup_keys⟩
  · rw [Collections.get_eq_of_text hkind]
    simp only [hget]
  · rw [perform_eq_ok_iff]
    refine exists_congr fun name => and_congr_right fun _ => ?_
    rw [Collections.kept_congr (hflags name)]
  · obtain ⟨b, -, rfl⟩ := Option.map_eq_some_iff.1 hx
    exact ⟨b, rfl⟩
  · have he' := (hlist e).1 he
    rw [hget] at he'
    refine Collections.isVariableName_of_holds (fun hstart => ?_) he'
    obtain ⟨x, hx⟩ := Option.isSome_iff_exists.1 hstart
    obtain ⟨value, hvalue, -⟩ := Option.map_eq_some_iff.1 hx
    exact hnames (e.1, value) (hordered.mem_entries_iff.2 hvalue)

/-- A process with a home directory. -/
def housed : World := { host := { collections := { env := ⟨.ofList [("HOME", "/w")]⟩ } } }

/-- Writes to it, the second and the third of which are refused. -/
def levelWrites : List CollectionWrite :=
  [⟨.env, .text "LEVEL", .int 3⟩, ⟨.env, .text "A=B", .text "x"⟩, ⟨.env, .text "LEVEL", .bool true⟩,
    ⟨.aliases, .text "ll", .text "ls -l"⟩, ⟨.aliases, .error "ll", .nil⟩]

theorem level_kept :
    (housed.afterWrites levelWrites).host.collections.get .env (.error "LEVEL") =
      some (.text "3") ∧
    (housed.afterWrites levelWrites).host.collections.get .env (.text "HOME") =
      some (.text "/w") ∧
    (housed.afterWrites levelWrites).host.collections.get .aliases (.text "ll") = none ∧
    ∀ value, ("A=B", value) ∉
      (housed.afterWrites levelWrites).host.collections.env.vars.entries := by
  have hnames : ∀ e ∈ housed.host.collections.env.vars.entries, IsVariableName e.1 := by
    intro e he
    obtain rfl : e = ("HOME", "/w") := List.mem_singleton.1 he
    decide
  obtain ⟨hreads, -, -, -, hvalid, -⟩ :=
    collections_refine_maps housed (TextMap.ordered_ofList _) hnames levelWrites
  have hinvalid : ¬IsVariableName "A=B" := by decide
  refine ⟨?_, ?_, ?_, fun value he => hinvalid (hvalid _ he)⟩
  · exact (hreads .env (.error "LEVEL") (by decide)).trans rfl
  · exact (hreads .env (.text "HOME") (by decide)).trans rfl
  · exact (hreads .aliases (.text "ll") (by decide)).trans rfl

/-- A flag that was never written reads as it was set at the start. -/
theorem flag_before_writes : ¬∀ (writes : List CollectionWrite) (kind : CollectionKind)
    (key : HostValue) (name : String), kind ≠ .history → key.asText? = some name →
      (World.afterWrites {} writes).host.collections.get kind key =
        (Collections.lastKept {} kind name writes).getD none := by
  intro h
  exact nomatch h [] .option (.text "noclobber") "noclobber" (by decide) rfl

end World

end ScriptShell
