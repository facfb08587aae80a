import Splice.Agent
import Splice.Note
import Splice.Proofs.Texts
/-!
# Lines of listings and logs

A line puts texts side by side. It can be taken apart again where a mark stands that
none of these texts has: the sign between the name and the value of a field, or
within the arrow of a listing. So a log line tells its record and a line of a listing
its row, and lines about different connections read differently. (What the kernel
prints of a redirect is not made of these texts: it has the two address words only.)
-/

namespace Splice

/-! ## Cutting at a mark -/

theorem append_mark_inj {c : Char} {l l' r r' : List Char} (hl : c ∉ l) (hl' : c ∉ l') :
    l ++ c :: r = l' ++ c :: r' ↔ l = l' ∧ r = r' := by
  constructor
  · intro h
    have hfirst : l = l' := by
      have hsplit := congrArg (List.splitOn c) h
      rw [List.splitOn_append_cons_self_of_not_mem hl, List.splitOn_append_cons_self_of_not_mem hl'] at hsplit
      exact (List.cons.inj hsplit).1
    subst hfirst
    exact ⟨rfl, (List.cons.inj (List.append_cancel_left h)).2⟩
  · rintro ⟨rfl, rfl⟩
    rfl

/-- The same where it is the texts behind the mark that are free of it. -/
theorem append_last_mark_inj {c : Char} {l l' r r' : List Char} (hr : c ∉ r) (hr' : c ∉ r') :
    l ++ c :: r = l' ++ c :: r' ↔ l = l' ∧ r = r' := by
  have hback : c ∉ r.reverse := mt List.mem_reverse.1 hr
  have hback' : c ∉ r'.reverse := mt List.mem_reverse.1 hr'
  calc l ++ c :: r = l' ++ c :: r' ↔ r.reverse ++ c :: l.reverse = r'.reverse ++ c :: l'.reverse := by
        rw [← List.reverse_inj]
        simp
    _ ↔ r.reverse = r'.reverse ∧ l.reverse = l'.reverse := append_mark_inj hback hback'
    _ ↔ l = l' ∧ r = r' := by rw [List.reverse_inj, List.reverse_inj, and_comm]

/-! ## Log records -/

namespace Log

theorem Level.tag_injective : Function.Injective tag := by
  intro x y h
  cases x <;> cases y <;> simp [tag] at h ⊢

/-- A field whose name has neither of the marks around it and whose value does not
have the sign before it. -/
def LegibleField (f : String × String) : Prop := ' ' ∉ f.1.toList ∧ '=' ∉ f.1.toList ∧ '=' ∉ f.2.toList

/-- The fields as they stand on a line. -/
def fieldChars : List (String × String) → List Char
  | [] => []
  | (name, value) :: fields => ' ' :: name.toList ++ '=' :: (value.toList ++ fieldChars fields)

theorem fieldChars_inj {fields fields' : List (String × String)} {s s' : String}
    (hfields : ∀ f ∈ fields, LegibleField f) (hfields' : ∀ f ∈ fields', LegibleField f)
    (hs : '=' ∉ s.toList) (hs' : '=' ∉ s'.toList)
    (h : s.toList ++ fieldChars fields = s'.toList ++ fieldChars fields') : s = s' ∧ fields = fields' := by
  -- What stands in front of the fields is the value of the field before them: it changes along the induction.
  induction fields generalizing fields' s s' with
  | nil =>
    cases fields' with
    | nil => exact ⟨String.toList_inj.1 (by simpa [fieldChars] using h), rfl⟩
    | cons f' fields' =>
      have hsign : '=' ∈ s.toList ++ fieldChars [] := by
        rw [h]
        simp [fieldChars]
      exact absurd (by simpa [fieldChars] using hsign) hs
  | cons f fields ih =>
    cases fields' with
    | nil =>
      have hsign : '=' ∈ s'.toList ++ fieldChars [] := by
        rw [← h]
        simp [fieldChars]
      exact absurd (by simpa [fieldChars] using hsign) hs'
    | cons f' fields' =>
      obtain ⟨name, value⟩ := f
      obtain ⟨name', value'⟩ := f'
      obtain ⟨⟨hblank, hname, hvalue⟩, hfields⟩ := List.forall_mem_cons.1 hfields
      obtain ⟨⟨hblank', hname', hvalue'⟩, hfields'⟩ := List.forall_mem_cons.1 hfields'
      have hmark : s.toList ++ ' ' :: name.toList ++ '=' :: (value.toList ++ fieldChars fields) =
          s'.toList ++ ' ' :: name'.toList ++ '=' :: (value'.toList ++ fieldChars fields') := by
        simpa [fieldChars] using h
      have hbefore : '=' ∉ s.toList ++ ' ' :: name.toList := by
        simpa using ⟨hs, hname⟩
      have hbefore' : '=' ∉ s'.toList ++ ' ' :: name'.toList := by
        simpa using ⟨hs', hname'⟩
      obtain ⟨hfirst, hrest⟩ := (append_mark_inj hbefore hbefore').1 hmark
      obtain ⟨hfront, hnames⟩ := (append_last_mark_inj hblank hblank').1 hfirst
      obtain ⟨rfl, rfl⟩ := ih hfields hfields' hvalue hvalue' hrest
      obtain rfl : name = name' := String.toList_inj.1 hnames
      exact ⟨String.toList_inj.1 hfront, rfl⟩

namespace Record

theorem toList_body (r : Record) : r.body.toList = r.message.toList ++ fieldChars r.fields := by
  obtain ⟨level, message, fields⟩ := r
  simp only [body]
  induction fields generalizing message with
  | nil => simp [fieldChars]
  | cons f fields ih => simp [ih, fieldChars]

/-- The marks of the line stand only where fields begin and names end. -/
structure Legible (r : Record) : Prop where
  message : '=' ∉ r.message.toList
  fields : ∀ f ∈ r.fields, LegibleField f

/-- A line tells its record. -/
theorem eq_of_line_eq {r r' : Record} (hr : r.Legible) (hr' : r'.Legible) (h : r.line = r'.line) : r = r' := by
  have htag : ∀ level : Level, ' ' ∉ level.tag.toList := by
    intro level
    cases level <;> decide
  have hchars : r.level.tag.toList ++ ' ' :: r.body.toList = r'.level.tag.toList ++ ' ' :: r'.body.toList := by
    simpa [line] using congrArg String.toList h
  obtain ⟨hlevel, hbody⟩ := (append_mark_inj (htag _) (htag _)).1 hchars
  rw [toList_body, toList_body] at hbody
  obtain ⟨hmessage, hfields⟩ := fieldChars_inj hr.fields hr'.fields hr.message hr'.message hbody
  obtain ⟨level, message, fields⟩ := r
  obtain ⟨level', message', fields'⟩ := r'
  simp only [mk.injEq]
  exact ⟨Level.tag_injective (String.toList_inj.1 hlevel), hmessage, hfields⟩

end Record

end Log

/-! ## The data path -/

theorem TableError.notMem_message (e : TableError) : '=' ∉ e.message.toList := by
  obtain ⟨table, capacity⟩ := e
  have htable : '=' ∉ table.text.toList := by cases table <;> decide
  have hnumeral : '=' ∉ Decimal.chars capacity := Decimal.notMem_chars rfl capacity
  simp [message, Decimal.text, htable, hnumeral]

theorem notMem_toDigits {c : Char} {b : Nat} (hb : 1 < b) (hc : ∀ d < b, d.digitChar ≠ c) (n : Nat) :
    c ∉ Nat.toDigits b n := by
  induction n using Nat.strongRecOn with
  | ind n ih =>
    rw [Nat.toDigits_eq_if hb]
    split
    · rename_i h
      simpa using (hc n h).symm
    · rename_i h
      have hrest : c ∉ Nat.toDigits b (n / b) := ih _ (Nat.div_lt_self (by omega) hb)
      simpa [hrest] using (hc (n % b) (Nat.mod_lt n (by omega))).symm

theorem DecodeError.notMem_message (e : DecodeError) : '=' ∉ e.message.toList := by
  have hnumeral : ∀ n, '=' ∉ Decimal.chars n := Decimal.notMem_chars rfl
  have hhex : ∀ n, '=' ∉ Log.hexChars n := notMem_toDigits (b := 16) (by decide) (by simp)
  unfold message
  cases e with
  | truncated layer needed available =>
    have hlayer : '=' ∉ layer.name.toList := by cases layer <;> decide
    simp [Decimal.text, hnumeral, hlayer]
  | _ => simp [Decimal.text, hex4, hnumeral, hhex]

namespace Note

/-- The tuples a note is about. -/
def tuples : Note → List Tuple
  | .selfConnect t | .outbound t _ | .originRefused t _ | .notRegistered t _ => [t]
  | .pairRefused initiator acceptor _ | .paired initiator acceptor => [initiator, acceptor]
  | .closed t _ _ | .redirected t | .disabled t _ => [t]
  | .frameSkipped _ => []

theorem legible_record (n : Note) : n.record.Legible := by
  have htuple : ∀ t : Tuple, '=' ∉ t.text.toList := by
    intro t
    simpa [Tuple.text] using t.notMem_chars rfl (by decide)
  have hendpoint : ∀ e : Endpoint, '=' ∉ e.text.toList := by
    intro e
    simpa [Endpoint.text] using e.notMem_chars rfl (by decide) (by decide)
  have htruth : ∀ b, '=' ∉ (Log.truth b).toList := by decide
  have hstate : ∀ s : ProxyState, '=' ∉ s.name.toList := by
    intro s
    cases s <;> decide
  constructor
  · cases n <;> simp [record]
  · cases n <;> simp [record, Log.LegibleField, htuple, hendpoint, TableError.notMem_message,
      DecodeError.notMem_message, htruth, hstate]

theorem tuples_eq_of_record_eq {m n : Note} (h : m.record = n.record) : m.tuples = n.tuples := by
  cases m <;> cases n <;> simp_all [record, tuples, Tuple.text_injective.eq_iff, Endpoint.text_injective.eq_iff]
  case redirected.redirected s t =>
    cases s
    cases t
    simp_all only

end Note

/-! ## Listings -/

theorem ProxyState.name_injective : Function.Injective name := by
  intro x y h
  cases x <;> cases y <;> simp [name] at h ⊢

namespace Agent

theorem toList_proxyLine (row : Tuple × ProxyEntry) : (proxyLine row).toList =
    "proxy   ".toList ++ row.1.chars ++ [' ', ' '] ++ '=' :: ('>' :: ' ' :: ' ' :: row.2.redirect.chars ++ [' ', ' '] ++
      '[' :: (row.2.state.name.toList ++ [']'])) := by
  simp [proxyLine, Tuple.text]

theorem proxyLine_injective : Function.Injective proxyLine := by
  rintro ⟨key, redirect, state⟩ ⟨key', redirect', state'⟩ h
  have hmark : ∀ t : Tuple, '=' ∉ t.chars := Tuple.notMem_chars rfl (by decide)
  have hbracket : ∀ t : Tuple, '[' ∉ t.chars := Tuple.notMem_chars rfl (by decide)
  have hchars := congrArg String.toList h
  rw [toList_proxyLine, toList_proxyLine] at hchars
  obtain ⟨hkey, hrest⟩ := (append_mark_inj (by simp [hmark]) (by simp [hmark])).1 hchars
  obtain ⟨hredirect, hstate⟩ := (append_mark_inj (by simp [hbracket]) (by simp [hbracket])).1 hrest
  have hkey : key = key' := Tuple.chars_injective (by simpa using hkey)
  have hredirect : redirect = redirect' := Tuple.chars_injective (by simpa using hredirect)
  have hstate : state = state' := ProxyState.name_injective (String.toList_inj.1 (by simpa using hstate))
  rw [hkey, hredirect, hstate]

theorem toList_pendingLine (row : Endpoint × Endpoint) : (pendingLine row).toList =
    "pending ".toList ++ row.1.chars ++ [' ', ' '] ++ '=' :: ('>' :: ' ' :: ' ' :: row.2.chars) := by
  simp [pendingLine, Endpoint.text]

theorem pendingLine_injective : Function.Injective pendingLine := by
  rintro ⟨endpoint, origin⟩ ⟨endpoint', origin'⟩ h
  have hmark : ∀ e : Endpoint, '=' ∉ e.chars := Endpoint.notMem_chars rfl (by decide) (by decide)
  have hchars := congrArg String.toList h
  rw [toList_pendingLine, toList_pendingLine] at hchars
  obtain ⟨hendpoint, horigin⟩ := (append_mark_inj (by simp [hmark]) (by simp [hmark])).1 hchars
  have hendpoint : endpoint = endpoint' := Endpoint.chars_injective (by simpa using hendpoint)
  have horigin : origin = origin' := Endpoint.chars_injective (by simpa using horigin)
  rw [hendpoint, horigin]

/-- The word a line begins with tells which table its row is from. -/
theorem proxyLine_ne_pendingLine (row : Tuple × ProxyEntry) (pending : Endpoint × Endpoint) :
    proxyLine row ≠ pendingLine pending := by
  intro h
  have hchars := congrArg String.toList h
  rw [toList_proxyLine, toList_pendingLine] at hchars
  simp at hchars

end Agent

/-- Endpoints and tuples have one text each and share it with no other, an endpoint
the same as its socket address. The arrow of a tuple's text divides it in one way
only, into the texts of its endpoints, and the text of the reversed tuple has them
exchanged. So a line of a listing tells its row, and log lines about different tuples
are different. -/
theorem text_identifies_connection :
    (∀ s t : Tuple, s.text = t.text ↔ s = t) ∧ (∀ x y : Endpoint, x.text = y.text ↔ x = y) ∧
      (∀ e : Endpoint, e.socketAddress.text = e.text) ∧
      (∀ (t : Tuple) (a b : String), t.text = a ++ " -> " ++ b ↔ a = t.own.text ∧ b = t.peer.text) ∧
      (∀ (t : Tuple) (a b : String), t.text = a ++ " -> " ++ b ↔ t.reversed.text = b ++ " -> " ++ a) ∧
      (∀ r s : Tuple × ProxyEntry, Agent.proxyLine r = Agent.proxyLine s ↔ r = s) ∧
      (∀ r s : Endpoint × Endpoint, Agent.pendingLine r = Agent.pendingLine s ↔ r = s) ∧
      (∀ (r : Tuple × ProxyEntry) (s : Endpoint × Endpoint), Agent.proxyLine r ≠ Agent.pendingLine s) ∧
      ∀ m n : Note, m.tuples ≠ n.tuples → m.record.line ≠ n.record.line := by
  refine ⟨fun _ _ => Tuple.text_injective.eq_iff, fun _ _ => Endpoint.text_injective.eq_iff,
    Endpoint.text_socketAddress, Tuple.text_eq_append_iff, ?_, fun _ _ => Agent.proxyLine_injective.eq_iff,
    fun _ _ => Agent.pendingLine_injective.eq_iff, Agent.proxyLine_ne_pendingLine, ?_⟩
  · intro t a b
    rw [t.text_eq_append_iff, t.reversed.text_eq_append_iff, Tuple.own_reversed, Tuple.peer_reversed]
    exact and_comm
  · intro m n hne hline
    exact hne (Note.tuples_eq_of_record_eq (Log.Record.eq_of_line_eq m.legible_record n.legible_record hline))

/-- Two tuples with the same digits in the same order, parted in different places. -/
theorem text_identifies_connection_with_same_digits :
    let m := Note.closed ⟨⟨⟨1, 2, 3, 4⟩, 56⟩, ⟨⟨10, 0, 0, 9⟩, 8080⟩⟩ true false
    let n := Note.closed ⟨⟨⟨12, 3, 4, 5⟩, 6⟩, ⟨⟨10, 0, 0, 9⟩, 8080⟩⟩ true false
    m.tuples ≠ n.tuples ∧ m.record.line ≠ n.record.line := by
  obtain ⟨-, -, -, -, -, -, -, -, hlines⟩ := text_identifies_connection
  intro m n
  have hne : m.tuples ≠ n.tuples := by decide
  exact ⟨hne, hlines m n hne⟩

end Splice
