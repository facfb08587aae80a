import Mathlib.Logic.Function.Basic
import Splice.Proofs.PinDirectory
import Splice.Proofs.Transcript
/-!
# Unpinning

Unpinning is followed on any host. A name of its pin directory is absent, or what
stands there is free to be removed, or it is held with a fault of its own; what the
host does when asked to remove it is assumed in each case, and shown of the machine.
The names are taken in their order: those that are absent are passed over, what is
free goes, and the first that is held ends it. The pins that were gone by are then
all absent, so unpinning once more comes to the same place without a change.
-/

namespace Splice.Pins

open Host

variable {σ α β : Type}

/-! ## Directories of a host -/

/-- What a directory has at a name. -/
inductive Entry (α : Type) where
  | absent
  | free (content : α)
  | held (content : α) (hold : Hold)

namespace Entry

def isPresent : Entry α → Bool
  | .absent => false
  | _ => true

/-- What keeps an entry from being removed. -/
def hold? : Entry α → Option Hold
  | .held _ hold => some hold
  | _ => none

theorem hold?_eq_some {e : Entry α} {hold : Hold} : e.hold? = some hold ↔ ∃ content, e = .held content hold := by
  cases e <;> simp [hold?]

theorem hold?_eq_none {e : Entry α} : e.hold? = none ↔ e = .absent ∨ ∃ content, e = .free content := by
  cases e <;> simp [hold?]

end Entry

/-- The entries without those of some names. -/
def without (ns : List String) (entries : String → Entry α) (name : String) : Entry α :=
  if name ∈ ns then .absent else entries name

theorem without_cons (name : String) (ns : List String) (entries : String → Entry α) :
    without (name :: ns) entries = without ns (Function.update entries name .absent) := by
  funext other
  by_cases hother : other = name <;> by_cases hns : other ∈ ns <;> simp [without, hother, hns]

theorem without_without (ns : List String) (entries : String → Entry α) :
    without ns (without ns entries) = without ns entries := by
  funext other
  simp only [without]
  split <;> rfl

theorem without_of_mem {ns : List String} {name : String} (hname : name ∈ ns) (entries : String → Entry α) :
    without ns entries name = .absent := if_pos hname

theorem without_of_notMem {ns : List String} {name : String} (hname : name ∉ ns) (entries : String → Entry α) :
    without ns entries name = entries name := if_neg hname

/-- A directory as a host has it: the states in which it is there, and its entries in
them. -/
structure Directory (σ α : Type) where
  There : σ → Prop
  entry : σ → String → Entry α

/-- A request came to this answer and left the directory there, with these entries. -/
structure Directory.Leaves (d : Directory σ α) (answer : β) (entries : String → Entry α) (r : β × σ) : Prop where
  answer : r.1 = answer
  there : d.There r.2
  entries : d.entry r.2 = entries

/-- How a host removes pins. What is absent is not found, what is free goes, and what
is held stays, with its own fault for an answer; no other entry changes. -/
structure Removes (remove : String → StateM σ (Except Fault Unit)) (dir : String) (d : Directory σ α) : Prop where
  absent : ∀ m name, d.There m → name ∈ names → d.entry m name = .absent →
    d.Leaves (.error .notFound) (d.entry m) (remove (Path.join dir name) m)
  free : ∀ m name content, d.There m → name ∈ names → d.entry m name = .free content →
    d.Leaves (.ok ()) (Function.update (d.entry m) name .absent) (remove (Path.join dir name) m)
  held : ∀ m name content hold, d.There m → name ∈ names → d.entry m name = .held content hold →
    d.Leaves (.error hold.fault) (d.entry m) (remove (Path.join dir name) m)

/-! ## Pins one after another -/

section Host

variable {remove : String → StateM σ (Except Fault Unit)} {dir name : String} {d : Directory σ α} {m : σ} {hold : Hold}

/-- Unpinning passes by a name that nothing holds. -/
theorem unpinNames_pass (h : Removes remove dir d) (hm : d.There m) (hname : name ∈ names)
    (hfree : (d.entry m name).hold? = none) :
    ∃ after, d.There after ∧ d.entry after = Function.update (d.entry m) name .absent ∧
      ∀ later removed, unpinNames remove dir (name :: later) removed m =
        unpinNames remove dir later (removed + if (d.entry m name).isPresent then 1 else 0) after := by
  rcases Entry.hold?_eq_none.1 hfree with hentry | ⟨content, hentry⟩
  · obtain ⟨hanswer, hthere, hentries⟩ := h.absent m name hm hname hentry
    refine ⟨_, hthere, ?_, fun later removed => ?_⟩
    · rw [hentries, ← hentry, Function.update_eq_self]
    · rw [Install.unpinNames_cons, hanswer, hentry]
      rfl
  · obtain ⟨hanswer, hthere, hentries⟩ := h.free m name content hm hname hentry
    refine ⟨_, hthere, hentries, fun later removed => ?_⟩
    rw [Install.unpinNames_cons, hanswer, hentry]
    rfl

/-- Unpinning ends at a name that is held. -/
theorem unpinNames_stop (h : Removes remove dir d) (hm : d.There m) (hname : name ∈ names)
    (hheld : (d.entry m name).hold? = some hold) (later : List String) (removed : Nat) :
    d.Leaves (.error (.path .unpin (Path.join dir name) hold.fault)) (d.entry m)
      (unpinNames remove dir (name :: later) removed m) := by
  obtain ⟨content, hentry⟩ := Entry.hold?_eq_some.1 hheld
  obtain ⟨hanswer, hthere, hentries⟩ := h.held m name content hold hm hname hentry
  have hstop : unpinNames remove dir (name :: later) removed m =
      (.error (.path .unpin (Path.join dir name) hold.fault), (remove (Path.join dir name) m).2) := by
    rw [Install.unpinNames_cons, hanswer]
    split
    · contradiction
    · rename_i hfault
      exact absurd (Except.error.inj hfault) hold.present
    · rename_i hfault
      rw [Except.error.inj hfault]
  rw [hstop]
  exact ⟨rfl, hthere, hentries⟩

/-- Unpinning passes by the names that nothing holds: they are absent then, and those
that were there are counted. -/
theorem unpinNames_append {ns : List String} (h : Removes remove dir d) (hm : d.There m)
    (hnames : ∀ name ∈ ns, name ∈ names) (hnodup : ns.Nodup) (hfree : ∀ name ∈ ns, (d.entry m name).hold? = none) :
    ∃ after, d.There after ∧ d.entry after = without ns (d.entry m) ∧
      ∀ later removed, unpinNames remove dir (ns ++ later) removed m =
        unpinNames remove dir later (removed + ns.countP fun name => (d.entry m name).isPresent) after := by
  induction ns generalizing m with
  | nil => exact ⟨m, hm, rfl, fun _ _ => rfl⟩
  | cons name ns ih =>
    obtain ⟨hnames, hrest⟩ := List.forall_mem_cons.1 hnames
    obtain ⟨hfirst, hfree⟩ := List.forall_mem_cons.1 hfree
    obtain ⟨hnew, hnodup⟩ := List.nodup_cons.1 hnodup
    obtain ⟨next, hnext, hentries, hpass⟩ := unpinNames_pass h hm hnames hfirst
    have hothers : ∀ other ∈ ns, d.entry next other = d.entry m other := by
      intro other hother
      have hne : other ≠ name := fun heq => hnew (heq ▸ hother)
      rw [hentries, Function.update_of_ne hne]
    have hcount : (ns.countP fun name => (d.entry next name).isPresent) =
        ns.countP fun name => (d.entry m name).isPresent :=
      List.countP_congr fun other hother => by rw [hothers other hother]
    obtain ⟨after, hafter, hleft, hrun⟩ := ih hnext hrest hnodup fun other hother => by
      rw [hothers other hother]
      exact hfree other hother
    refine ⟨after, hafter, ?_, fun later removed => ?_⟩
    · rw [hleft, hentries, without_cons]
    · rw [List.cons_append, hpass, hrun, hcount, List.countP_cons, Nat.add_assoc, Nat.add_comm (ns.countP _)]

/-! ## The two ways it ends -/

theorem unpin_of_free (h : Removes remove dir d) (hm : d.There m)
    (hall : ∀ name ∈ names, (d.entry m name).hold? = none) :
    d.Leaves (.ok (names.countP fun name => (d.entry m name).isPresent)) (without names (d.entry m))
      (unpin remove dir m) := by
  obtain ⟨after, hafter, hleft, hrun⟩ := unpinNames_append h hm (fun _ => id) nodup_names hall
  have hunpin := hrun [] 0
  rw [List.append_nil, Nat.zero_add] at hunpin
  unfold unpin
  rw [hunpin]
  exact ⟨rfl, hafter, hleft⟩

/-- A name behind others in the list of pins is none of them. -/
theorem notMem_of_split {before later : List String} (hsplit : names = before ++ name :: later) : name ∉ before := by
  have hnodup : (before ++ name :: later).Nodup := hsplit ▸ nodup_names
  exact fun hname => (List.nodup_append.1 hnodup).2.2 name hname name List.mem_cons_self rfl

theorem unpin_of_held {before later : List String} (h : Removes remove dir d) (hm : d.There m)
    (hsplit : names = before ++ name :: later) (hheld : (d.entry m name).hold? = some hold)
    (hbefore : ∀ earlier ∈ before, (d.entry m earlier).hold? = none) :
    d.Leaves (.error (.path .unpin (Path.join dir name) hold.fault)) (without before (d.entry m))
      (unpin remove dir m) := by
  have hnodup : before.Nodup := (List.nodup_append.1 (hsplit ▸ nodup_names)).1
  obtain ⟨after, hafter, hleft, hrun⟩ := unpinNames_append h hm (by simp +contextual [hsplit]) hnodup hbefore
  have hstays : (d.entry after name).hold? = some hold := by
    rw [hleft, without_of_notMem (notMem_of_split hsplit)]
    exact hheld
  unfold unpin
  rw [hsplit, hrun, ← hleft]
  exact unpinNames_stop h hafter (by simp [hsplit]) hstays _ _

end Host

/-! ## On the machine -/

section Machine

variable {m m' : Machine} {dir name : String} {loc : Location}

/-- Nothing of a machine changed but what stands at the pins of a place. -/
structure OnlyPins (m : Machine) (loc : Location) (after : Machine) : Prop where
  rest : after = { m with files := after.files }
  cwd : after.files.cwd = m.files.cwd
  held : after.files.held = m.files.held
  others : ∀ place, (∀ name ∈ names, place ≠ loc ++ [name]) → after.files.node? place = m.files.node? place

theorem OnlyPins.refl (m : Machine) (loc : Location) : OnlyPins m loc m := ⟨rfl, rfl, rfl, fun _ _ => rfl⟩

theorem OnlyPins.erase (h : OnlyPins m loc m') (hname : name ∈ names) :
    OnlyPins m loc { m' with files := m'.files.erase (loc ++ [name]) } where
  rest := by rw [h.rest]
  cwd := h.cwd
  held := h.held
  others place hplace := by
    have hne : loc ++ [name] ≠ place := (hplace name hname).symm
    rw [FileSystem.node?_erase, if_neg hne]
    exact h.others place hplace

/-- The directory at a place of a machine, with nothing else of it changed. -/
def machineDirectory (m : Machine) (dir : String) (loc : Location) : Directory Machine (Node Content) where
  There after := PinDirectory after.files dir loc ∧ OnlyPins m loc after
  entry after name :=
    match after.files.node? (loc ++ [name]), after.files.hold? (loc ++ [name]) with
    | none, _ => .absent
    | some node, none => .free node
    | some node, some hold => .held node hold

theorem entry_erase (name : String) :
    (machineDirectory m dir loc).entry { m' with files := m'.files.erase (loc ++ [name]) } =
      Function.update ((machineDirectory m dir loc).entry m') name .absent := by
  funext other
  by_cases hother : other = name
  · subst hother
    simp [machineDirectory]
  · have hne : loc ++ [name] ≠ loc ++ [other] := by simpa using Ne.symm hother
    simp [machineDirectory, Function.update_of_ne hother, hne]

theorem system_remove (h : PinDirectory m.files dir loc) (hname : name ∈ names) :
    Machine.system.remove (Path.join dir name) m =
      match m.files.node? (loc ++ [name]), m.files.hold? (loc ++ [name]) with
      | none, _ => (.error .notFound, m)
      | some _, some hold => (.error hold.fault, m)
      | some _, none => (.ok (), { m with files := m.files.erase (loc ++ [name]) }) := by
  have hresolve := h.resolve hname
  change Machine.onFiles (·.remove (Path.join dir name)) m = _
  unfold Machine.onFiles
  dsimp only
  cases hnode : m.files.node? (loc ++ [name]) with
  | none =>
    rw [hnode] at hresolve
    rw [FileSystem.remove_of_resolve_error hresolve]
  | some node =>
    rw [hnode] at hresolve
    rw [FileSystem.remove_of_resolve hresolve]
    cases m.files.hold? (loc ++ [name]) <;> rfl

/-- The machine removes pins from the directory a path leads to. -/
theorem removes_machine (m : Machine) (dir : String) (loc : Location) :
    Removes Machine.system.remove dir (machineDirectory m dir loc) := by
  constructor
  · rintro m' name ⟨hdir, honly⟩ hname hentry
    have hremove := system_remove hdir hname
    simp only [machineDirectory] at hentry
    split at hentry
    · rename_i hnode
      rw [hnode] at hremove
      rw [hremove]
      exact ⟨rfl, ⟨hdir, honly⟩, rfl⟩
    · cases hentry
    · cases hentry
  · rintro m' name content ⟨hdir, honly⟩ hname hentry
    have hremove := system_remove hdir hname
    simp only [machineDirectory] at hentry
    split at hentry
    · cases hentry
    · rename_i node hnode hhold
      rw [hnode, hhold] at hremove
      rw [hremove]
      exact ⟨rfl, ⟨hdir.erase (FileSystem.not_directoryAt_of_hold? hhold), honly.erase hname⟩, entry_erase name⟩
    · cases hentry
  · rintro m' name content hold ⟨hdir, honly⟩ hname hentry
    have hremove := system_remove hdir hname
    simp only [machineDirectory] at hentry
    split at hentry
    · cases hentry
    · cases hentry
    · rename_i node other hnode hhold
      cases hentry
      rw [hnode, hhold] at hremove
      rw [hremove]
      exact ⟨rfl, ⟨hdir, honly⟩, rfl⟩

end Machine

/-! ## What unpinning comes to -/

/-- No pin was held. Those that were there are counted and gone, and no other entry
changed. -/
structure Emptied (entries : String → Entry α) (answer : Except BpfError Nat) (after : String → Entry α) : Prop where
  free : ∀ name ∈ names, (entries name).hold? = none
  counts : answer = .ok (names.countP fun name => (entries name).isPresent)
  gone : ∀ name ∈ names, after name = .absent
  kept : ∀ other, other ∉ names → after other = entries other

/-- One pin was held, and none of those before it. Its fault is reported, those before
it are gone, and no other entry changed. -/
structure Stopped (entries : String → Entry α) (dir : String) (before : List String) (name : String)
    (later : List String) (hold : Hold) (answer : Except BpfError Nat) (after : String → Entry α) : Prop where
  split : names = before ++ name :: later
  free : ∀ earlier ∈ before, (entries earlier).hold? = none
  held : (entries name).hold? = some hold
  reports : answer = .error (.path .unpin (Path.join dir name) hold.fault)
  gone : ∀ earlier ∈ before, after earlier = .absent
  kept : ∀ other, other ∉ before → after other = entries other

theorem emptied_without {entries : String → Entry α} (hall : ∀ name ∈ names, (entries name).hold? = none) :
    Emptied entries (.ok (names.countP fun name => (entries name).isPresent)) (without names entries) :=
  ⟨hall, rfl, fun _ hname => without_of_mem hname _, fun _ hother => without_of_notMem hother _⟩

theorem stopped_without {entries : String → Entry α} {dir : String} {before later : List String} {name : String}
    {hold : Hold} (hsplit : names = before ++ name :: later) (hbefore : ∀ earlier ∈ before, (entries earlier).hold? = none)
    (hheld : (entries name).hold? = some hold) :
    Stopped entries dir before name later hold (.error (.path .unpin (Path.join dir name) hold.fault))
      (without before entries) :=
  ⟨hsplit, hbefore, hheld, rfl, fun _ hname => without_of_mem hname _, fun _ hother => without_of_notMem hother _⟩

/-- On a host that removes pins one by one, unpinning removes those before the first
that is held, or all, and nothing else. Done again, it answers the like and changes
no entry. -/
theorem unpin_exact_and_repeatable {remove : String → StateM σ (Except Fault Unit)} {dir : String} {d : Directory σ α}
    {m : σ} (h : Removes remove dir d) (hm : d.There m) :
    ∃ answer after, unpin remove dir m = (answer, after) ∧ d.There after ∧
      (Emptied (d.entry m) answer (d.entry after) ∨
        ∃ before name later hold, Stopped (d.entry m) dir before name later hold answer (d.entry after)) ∧
      d.Leaves (answer.map fun _ => 0) (d.entry after) (unpin remove dir after) := by
  cases hfind : names.find? fun name => (d.entry m name).hold?.isSome with
  | none =>
    have hall : ∀ name ∈ names, (d.entry m name).hold? = none := by simpa using hfind
    obtain ⟨hanswer, hthere, hentries⟩ := unpin_of_free h hm hall
    have hgone : ∀ name ∈ names, d.entry (unpin remove dir m).2 name = .absent := by
      intro name hname
      rw [hentries, without_of_mem hname]
    have hcount : (names.countP fun name => (d.entry (unpin remove dir m).2 name).isPresent) = 0 :=
      List.countP_eq_zero.2 fun name hname => by simp [hgone name hname, Entry.isPresent]
    have hagain := unpin_of_free h hthere fun name hname => by rw [hgone name hname]; rfl
    rw [hcount, hentries, without_without, ← hentries] at hagain
    exact ⟨_, _, Prod.ext hanswer rfl, hthere, .inl (hentries ▸ emptied_without hall), hagain⟩
  | some name =>
    obtain ⟨hname, before, later, hsplit, hbefore⟩ := List.find?_eq_some_iff_append.1 hfind
    obtain ⟨hold, hheld⟩ := Option.isSome_iff_exists.1 hname
    have hfree : ∀ earlier ∈ before, (d.entry m earlier).hold? = none := by simpa using hbefore
    obtain ⟨hanswer, hthere, hentries⟩ := unpin_of_held h hm hsplit hheld hfree
    have hstays : (d.entry (unpin remove dir m).2 name).hold? = some hold := by
      rw [hentries, without_of_notMem (notMem_of_split hsplit)]
      exact hheld
    have hagain := unpin_of_held h hthere hsplit hstays fun earlier hearlier => by
      rw [hentries, without_of_mem hearlier]
      rfl
    rw [hentries, without_without, ← hentries] at hagain
    exact ⟨_, _, Prod.ext hanswer rfl, hthere,
      .inr ⟨before, name, later, hold, hentries ▸ stopped_without hsplit hfree hheld⟩, hagain⟩

/-- A pin directory where the first map is pinned, the second is not, the third may not
be removed, and a file of another name stands beside the last. -/
def mixedPins : Machine :=
  let nodes : List (Location × Node Content) :=
    [([], .directory .disk), (["pins"], .directory .bpf), (["pins", "MAP_ACTIVE_ESTAB"], .file .bpf (.pin 0)),
      (["pins", "MAP_REDIR"], .file .bpf (.pin 1)), (["pins", "DEBUG_MAP"], .file .bpf (.pin 2)),
      (["pins", "other"], .file .bpf (.pin 3))]
  .fresh ⟨[], nodes, [(["pins", "MAP_REDIR"], ⟨.notPermitted, by decide⟩)]⟩ false

/-- The third map is reported with the first pin gone, and reported again. -/
theorem unpin_mixedPins :
    let d := machineDirectory mixedPins "/pins" ["pins"]
    Removes Machine.system.remove "/pins" d ∧ d.There mixedPins ∧
      ∃ answer after, unpin Machine.system.remove "/pins" mixedPins = (answer, after) ∧ d.There after ∧
        (Emptied (d.entry mixedPins) answer (d.entry after) ∨
          ∃ before name later hold,
            Stopped (d.entry mixedPins) "/pins" before name later hold answer (d.entry after)) ∧
        d.Leaves (answer.map fun _ => 0) (d.entry after) (unpin Machine.system.remove "/pins" after) ∧
        answer = .error (.path .unpin "/pins/MAP_REDIR" .notPermitted) := by
  intro d
  have htakes : ∀ name ∈ names, '\x00' ∉ (Path.join "/pins" name).toList ∧ Path.join "/pins" name ≠ "" ∧
      (Path.join "/pins" name).utf8ByteSize ≤ Path.maxPath := by
    decide +kernel
  have hm : d.There mixedPins :=
    ⟨⟨rfl, ⟨.bpf, rfl⟩, fun name hname => FileSystem.checkPath_eq_ok.2 (htakes name hname)⟩, .refl _ _⟩
  have h : Removes Machine.system.remove "/pins" d := removes_machine mixedPins "/pins" ["pins"]
  obtain ⟨answer, after, hrun, hthere, houtcome, hagain⟩ := unpin_exact_and_repeatable h hm
  have hsplit : names = ["MAP_ACTIVE_ESTAB", "MAP_PROXY"] ++ "MAP_REDIR" :: ["DEBUG_MAP"] := rfl
  have hfree : ∀ earlier ∈ ["MAP_ACTIVE_ESTAB", "MAP_PROXY"], (d.entry mixedPins earlier).hold? = none := by
    simp only [List.forall_mem_cons]
    exact ⟨rfl, rfl, nofun⟩
  have hstop := (unpin_of_held h hm hsplit rfl hfree).answer
  exact ⟨h, hm, answer, after, hrun, hthere, houtcome, hagain, (congrArg Prod.fst hrun).symm.trans hstop⟩

end Splice.Pins
