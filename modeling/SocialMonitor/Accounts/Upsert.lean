import SocialMonitor.Accounts.Agreement
import SocialMonitor.Async.Pool

/-!
# Concurrent upserts

Any number of calls of `upsert` over one table, interleaved between the read of
a row and the write that follows it, with the calls that have completed.
-/

namespace SocialMonitor.Accounts

open Async Program

structure UpsertCall where
  phone : String
  encryptedSession : String
  connected : Bool
deriving DecidableEq

abbrev UpsertPool := Pool UpsertCall World Op Answer ApiError Unit

abbrev UpsertEvent := Async.Event UpsertCall Choice Empty

/-- The calls and those of them that have returned, the last one first. -/
structure Progress where
  pool : UpsertPool
  completed : List UpsertCall

def Progress.rows (s : Progress) : List TelegramAccount := s.pool.store.accounts.rows

def upserts (setting : Setting) : System UpsertCall World Choice Empty Op Answer ApiError Unit where
  start c := TelegramAccountRepository.upsert c.phone c.encryptedSession c.connected
  exec := exec setting
  env := fun change _ => change.elim

def hasReturned (c : Call UpsertCall Op Answer ApiError Unit) : Bool :=
  match c.rest with
  | .ret _ => true
  | _ => false

/-- The call that an event makes return. -/
def returning (before after : UpsertPool) : UpsertEvent → List UpsertCall
  | .perform index _ =>
      match before.calls[index]?, after.calls[index]? with
      | some c, some c' => if !hasReturned c && hasReturned c' then [c.label] else []
      | _, _ => []
  | _ => []

def upsertStep (setting : Setting) (s : Progress) (e : UpsertEvent) : Progress :=
  let pool := (upserts setting).step s.pool e
  ⟨pool, returning s.pool pool e ++ s.completed⟩

/-- No row is created for a phone that has one by now. -/
def FreshOp (s : Progress) (choice : Choice) : Op → Prop
  | .create phone _ _ => choice.fault = none → ∀ a ∈ s.rows, a.phone ≠ phone
  | _ => True

def Fresh (s : Progress) : UpsertEvent → Prop
  | .perform index choice => ∀ op ∈ s.pool.awaited? index, FreshOp s choice op
  | _ => True

instance {s : Progress} {choice : Choice} {op : Op} : Decidable (FreshOp s choice op) := by
  cases op <;> unfold FreshOp <;> infer_instance

instance {s : Progress} {e : UpsertEvent} : Decidable (Fresh s e) := by
  cases e <;> unfold Fresh <;> infer_instance

def Progress.last? (s : Progress) (phone : String) : Option UpsertCall :=
  s.completed.find? fun c => c.phone = phone

/-- The row is the one that the call writes. -/
def UpsertCall.Wrote (c : UpsertCall) (a : TelegramAccount) : Prop :=
  a.phone = c.phone ∧ a.session = c.encryptedSession ∧ a.connected = c.connected

/-- One row for each phone, as the last call for it that has returned has written it. -/
structure OneRow (s : Progress) : Prop where
  unique : Table.Unique TelegramAccount.phone s.rows
  written : ∀ phone, ∀ c ∈ s.last? phone, ∃ a ∈ s.rows, c.Wrote a

/-! ## How far a call has come -/

inductive Stage (t : AccountTable) (c : UpsertCall) : Program Op Answer ApiError Unit → Prop where
  | finding : Stage t c (TelegramAccountRepository.upsert c.phone c.encryptedSession c.connected)
  | updating (id : Id) (hrow : ∃ a ∈ t.rows, a.id = id ∧ a.phone = c.phone) :
      Stage t c (await (Op.update id c.encryptedSession c.connected))
  | creating : Stage t c (await (Op.create c.phone c.encryptedSession c.connected))
  | ended (r : Except ApiError Unit) : Stage t c (Program.ofExcept r)

def AccountTable.Extends (t t' : AccountTable) : Prop :=
  ∀ a ∈ t.rows, ∃ a' ∈ t'.rows, a'.id = a.id ∧ a'.phone = a.phone

theorem AccountTable.Extends.refl (t : AccountTable) : t.Extends t := fun a ha => ⟨a, ha, rfl, rfl⟩

theorem Stage.extends {t t' : AccountTable} {c : UpsertCall}
    {rest : Program Op Answer ApiError Unit}
    (h : Stage t c rest) (hextends : t.Extends t') : Stage t' c rest := by
  cases h with
  | finding => exact .finding
  | creating => exact .creating
  | ended r => exact .ended r
  | updating id hrow =>
      obtain ⟨a, ha, hid, hphone⟩ := hrow
      obtain ⟨a', ha', hid', hphone'⟩ := hextends a ha
      exact .updating id ⟨a', ha', hid'.trans hid, hphone'.trans hphone⟩

/-- What a step of a call does to the table: nothing, or it writes the row of
the phone and returns. -/
inductive Writes (t : AccountTable) (c : UpsertCall) :
    Program Op Answer ApiError Unit → AccountTable → Prop where
  | kept (rest : Program Op Answer ApiError Unit) (hrest : ∀ u, rest ≠ ret u) : Writes t c rest t
  | wrote (t' : AccountTable) (hkeyed : t'.Keyed) (hextends : t.Extends t')
      (hrow : ∃ a ∈ t'.rows, c.Wrote a)
      (hother : ∀ a ∈ t.rows, a.phone ≠ c.phone → a ∈ t'.rows) : Writes t c (ret ()) t'

theorem Writes.extends {t t' : AccountTable} {c : UpsertCall}
    {rest : Program Op Answer ApiError Unit}
    (h : Writes t c rest t') : t.Extends t' := by
  cases h with
  | kept rest hrest => exact .refl t
  | wrote t' hkeyed hextends hrow hother => exact hextends

section Resume

variable {setting : Setting} {w : World} {c : UpsertCall}

theorem resume_updating (hkeyed : w.accounts.Keyed) {id : Id}
    (hrow : ∃ a ∈ w.accounts.rows, a.id = id ∧ a.phone = c.phone)
    {r : Except ApiError Unit} {w' : World}
    (heffect : Effect w (.update id c.encryptedSession c.connected) r w') :
    Writes w.accounts c (Program.ofExcept r) w'.accounts := by
  cases r with
  | error e =>
      obtain rfl : w' = w := heffect
      exact .kept _ (by simp)
  | ok _ =>
      obtain rfl := heffect
      obtain ⟨a, ha, rfl, hphone⟩ := hrow
      refine .wrote _ (hkeyed.update _ _ _) ?_ ⟨_, List.mem_map_of_mem ha, ?_⟩ ?_
      · intro b hb
        refine ⟨_, List.mem_map_of_mem hb, ?_, ?_⟩ <;> split_ifs <;> rfl
      · rw [if_pos rfl]
        exact ⟨hphone, rfl, rfl⟩
      · intro b hb hne
        have hid : b.id ≠ a.id := fun hid => hne (hkeyed.eq_of_id hb ha hid ▸ hphone)
        exact List.mem_map.mpr ⟨b, hb, if_neg hid⟩

theorem resume_creating (hkeyed : w.accounts.Keyed) {r : Except ApiError Unit} {w' : World}
    (hfresh : (∃ u, r = .ok u) → ∀ a ∈ w.accounts.rows, a.phone ≠ c.phone)
    (heffect : Effect w (.create c.phone c.encryptedSession c.connected) r w') :
    Writes w.accounts c (Program.ofExcept r) w'.accounts := by
  cases r with
  | error e =>
      obtain rfl : w' = w := heffect
      exact .kept _ (by simp)
  | ok u =>
      obtain rfl := heffect
      refine .wrote _ (hkeyed.create (hfresh ⟨u, rfl⟩) _ _) ?_
        ⟨_, List.mem_append_right _ (List.mem_singleton_self _), rfl, rfl, rfl⟩
        fun a ha _ => List.mem_append_left _ ha
      exact fun a ha => ⟨a, List.mem_append_left _ ha, rfl, rfl⟩

/-- A call goes on to its next stage, and writes a row only as it returns. -/
theorem Stage.resume (setting : Setting) {op : Op}
    {next : Except ApiError (Answer op) → Program Op Answer ApiError Unit}
    (hstage : Stage w.accounts c (.call op next)) (hkeyed : w.accounts.Keyed) (choice : Choice)
    (hfresh : ∀ phone session connected, op = .create phone session connected →
      choice.fault = none →
      ∀ a ∈ w.accounts.rows, a.phone ≠ phone) :
    Stage (exec setting choice op w).2.accounts c (next (exec setting choice op w).1) ∧
      Writes w.accounts c (next (exec setting choice op w).1)
        (exec setting choice op w).2.accounts := by
  have heffect := exec_effect setting choice op w
  have hcreated : ∀ phone session connected, op = .create phone session connected →
      (∃ u, (exec setting choice op w).1 = .ok u) → ∀ a ∈ w.accounts.rows, a.phone ≠ phone := by
    rintro phone session connected rfl ⟨u, hu⟩
    cases hfault : choice.fault with
    | none => exact hfresh phone session connected rfl hfault
    | some e => simp [exec, Choice.query, hfault] at hu
  generalize exec setting choice op w = answered at heffect hcreated
  obtain ⟨r, w'⟩ := answered
  generalize hrest : Program.call op next = rest at hstage
  cases hstage with
  | finding =>
      unfold TelegramAccountRepository.upsert at hrest
      cases hrest
      cases r with
      | error e =>
          obtain rfl : w' = w := heffect
          exact ⟨.ended (.error e), .kept _ (by simp [Program.bind])⟩
      | ok found =>
          obtain ⟨rfl, hfound, -⟩ := heffect
          cases found with
          | none => exact ⟨.creating, .kept _ (by simp [Program.bind])⟩
          | some a =>
              obtain ⟨ha, hphone⟩ := hfound a rfl
              exact ⟨.updating a.id ⟨a, ha, rfl, hphone⟩, .kept _ (by simp [Program.bind])⟩
  | updating id hrow =>
      cases hrest
      exact ⟨.ended r, resume_updating hkeyed hrow heffect⟩
  | creating =>
      cases hrest
      exact ⟨.ended r, resume_creating hkeyed (hcreated _ _ _ rfl) heffect⟩
  | ended r =>
      cases r <;> cases hrest

end Resume

/-! ## Every run -/

section Runs

variable {setting : Setting} {s : Progress}

structure InProgress (s : Progress) : Prop where
  keyed : s.pool.store.accounts.Keyed
  stages : ∀ c ∈ s.pool.calls, Stage s.pool.store.accounts c.label c.rest
  written : ∀ phone, ∀ c ∈ s.last? phone, ∃ a ∈ s.rows, c.Wrote a

theorem InProgress.spawn (h : InProgress s) (label : UpsertCall) :
    InProgress (upsertStep setting s (.spawn label)) where
  keyed := h.keyed
  stages c hc := by
    rcases List.mem_append.mp hc with hc | hc
    · exact h.stages c hc
    · obtain rfl := List.mem_singleton.mp hc
      exact .finding
  written := h.written

theorem returning_self (P : UpsertPool) (e : UpsertEvent) : returning P P e = [] := by
  cases e with
  | perform index choice => cases hget : P.calls[index]? <;> simp [returning, hget]
  | spawn label => rfl
  | env change => rfl

theorem returning_resumed {P : UpsertPool} {index : ℕ} {choice choice' : Choice}
    {call : Call UpsertCall Op Answer ApiError Unit} {op : Op}
    {next : Except ApiError (Answer op) → Program Op Answer ApiError Unit}
    (hget : P.calls[index]? = some call) (hrest : call.rest = .call op next) :
    returning P ((upserts setting).resumed P index choice call op next) (.perform index choice') =
      if hasReturned ⟨call.label, [], next (exec setting choice op P.store).1⟩
      then [call.label] else [] := by
  have hlt := (List.getElem?_eq_some_iff.mp hget).1
  have hrunning : hasReturned call = false := by simp [hasReturned, hrest]
  have hafter : ((upserts setting).resumed P index choice call op next).calls[index]? =
      some ⟨call.label, ⟨op, (exec setting choice op P.store).1⟩ :: call.history,
        next (exec setting choice op P.store).1⟩ := by
    simp [System.resumed, upserts, hlt]
  simp only [returning, hget, hafter, hrunning, Bool.not_false, Bool.true_and]
  rfl

theorem Writes.written {t t' : AccountTable} {c : UpsertCall}
    {rest : Program Op Answer ApiError Unit}
    (h : Writes t c rest t') {completed : List UpsertCall}
    (hold : ∀ phone, ∀ c ∈ completed.find? (fun c => c.phone = phone), ∃ a ∈ t.rows, c.Wrote a) :
    ∀ phone, ∀ c' ∈ ((if hasReturned ⟨c, [], rest⟩ then [c] else []) ++ completed).find?
      (fun c => c.phone = phone), ∃ a ∈ t'.rows, c'.Wrote a := by
  intro phone c' hc'
  cases h with
  | kept rest hrest =>
      have hrunning : hasReturned ⟨c, [], rest⟩ = false := by
        cases rest with
        | ret u => exact absurd rfl (hrest u)
        | raise e => rfl
        | call op next => rfl
      rw [hrunning] at hc'
      exact hold phone c' hc'
  | wrote t' hkeyed hextends hrow hother =>
      rw [hasReturned, if_pos rfl, List.singleton_append] at hc'
      by_cases hphone : c.phone = phone
      · rw [List.find?_cons_of_pos (by simpa using hphone)] at hc'
        obtain rfl := Option.some_inj.mp hc'
        exact hrow
      · rw [List.find?_cons_of_neg (by simpa using hphone)] at hc'
        obtain ⟨a, ha, hwrote⟩ := hold phone c' hc'
        have hphone' : c'.phone = phone := by simpa using List.find?_some hc'
        exact ⟨a, hother a ha fun heq => hphone (heq.symm.trans (hwrote.1.trans hphone')), hwrote⟩

theorem InProgress.step (h : InProgress s) {e : UpsertEvent} (hfresh : Fresh s e) :
    InProgress (upsertStep setting s e) := by
  cases e with
  | spawn label => exact h.spawn label
  | env change => exact change.elim
  | perform index choice =>
      rcases (upserts setting).step_perform s.pool index choice with
        hsame | ⟨call, op, next, hget, hrest, hstep⟩
      · have hstep' : upsertStep setting s (.perform index choice) = s := by
          simp only [upsertStep, hsame, returning_self, List.nil_append]
        rw [hstep']
        exact h
      · have hstep' : upsertStep setting s (.perform index choice) =
            ⟨(upserts setting).resumed s.pool index choice call op next,
              (if hasReturned ⟨call.label, [], next (exec setting choice op s.pool.store).1⟩
                then [call.label] else []) ++ s.completed⟩ := by
          simp only [upsertStep, hstep, returning_resumed hget hrest]
        have hstage := h.stages call (List.mem_of_getElem? hget)
        rw [hrest] at hstage
        have hfreshOp := hfresh op (Pool.awaited?_eq hget hrest)
        obtain ⟨hnext, hwrites⟩ := hstage.resume setting h.keyed choice
          (by rintro phone session connected rfl; exact hfreshOp)
        rw [hstep']
        refine ⟨?_, ?_, hwrites.written h.written⟩
        · change (exec setting choice op s.pool.store).2.accounts.Keyed
          generalize (exec setting choice op s.pool.store).2.accounts = t' at hwrites
          generalize next (exec setting choice op s.pool.store).1 = rest at hwrites
          cases hwrites with
          | kept rest hrest => exact h.keyed
          | wrote t' hkeyed hextends hrow hother => exact hkeyed
        · intro c hc
          rcases (upserts setting).mem_resumed hc with hc | rfl
          · exact (h.stages c hc).extends hwrites.extends
          · exact hnext

theorem inProgress_of_run {w : World} (hkeyed : w.accounts.Keyed)
    (hrun : Machine.Run (upsertStep setting) Fresh ⟨⟨w, []⟩, []⟩ s) : InProgress s := by
  refine hrun.invariant InProgress ?_ fun s e _ h hfresh => h.step hfresh
  exact ⟨hkeyed, fun c hc => absurd hc List.not_mem_nil,
    fun phone c hc => absurd hc (by simp [Progress.last?])⟩

theorem not_unique_of_stale (hkeyed : s.pool.store.accounts.Keyed) {e : UpsertEvent}
    (hstale : ¬ Fresh s e) :
    ¬ Table.Unique TelegramAccount.phone (upsertStep setting s e).rows := by
  cases e with
  | spawn label => exact absurd trivial hstale
  | env change => exact change.elim
  | perform index choice =>
      obtain ⟨op, hstale⟩ := not_forall.mp hstale
      obtain ⟨hawaited, hstale⟩ := not_forall.mp hstale
      cases op with
      | create phone session connected => ?_
      | _ => exact absurd trivial hstale
      simp only [FreshOp, not_forall, not_not] at hstale
      obtain ⟨hfault, a, ha, hphone⟩ := hstale
      obtain ⟨call, next, hget, hrest⟩ := Pool.exists_of_awaited? hawaited
      have hrows : (upsertStep setting s (.perform index choice)).rows =
          s.rows ++ [⟨s.pool.store.accounts.nextId, phone, session, connected⟩] := by
        simp [upsertStep, Progress.rows, System.step, hget, hrest, System.resumed, upserts, exec,
          Choice.query, hfault, AccountTable.create]
      intro hunique
      have hsame := hunique a (by rw [hrows]; exact List.mem_append_left _ ha)
        ⟨s.pool.store.accounts.nextId, phone, session, connected⟩ (by simp [hrows]) hphone
      have hbelow := hkeyed.drawn.below a.id (List.mem_map_of_mem ha)
      rw [hsame] at hbelow
      exact lt_irrefl _ hbelow

end Runs

/-- While no row is created beside another one of its phone, there is one row
for each phone, as the last call for it that has returned has written it; and
the first such creation makes two. -/
theorem upsert_oneRow {setting : Setting} {w : World} (hkeyed : w.accounts.Keyed) {s : Progress}
    (hrun : Machine.Run (upsertStep setting) Fresh ⟨⟨w, []⟩, []⟩ s) :
    OneRow s ∧ ∀ e, Table.Unique TelegramAccount.phone (upsertStep setting s e).rows ↔
    Fresh s e := by
  have hprogress := inProgress_of_run hkeyed hrun
  refine ⟨⟨hprogress.keyed.unique, hprogress.written⟩,
    fun e => ⟨fun hunique => ?_, fun hfresh => ?_⟩⟩
  · by_contra hstale
    exact not_unique_of_stale hprogress.keyed hstale hunique
  · exact (hprogress.step hfresh).keyed.unique

/-! ## Two logins of one phone -/

def calmChoice : Choice := orderly 0 (.answered []) 0

def firstLogin : UpsertCall := ⟨"+86138", "first", true⟩

def secondLogin : UpsertCall := ⟨"+86138", "second", true⟩

/-- The second call begins after the first has returned. -/
def inTurn : List UpsertEvent :=
  [.spawn firstLogin, .perform 0 calmChoice, .perform 0 calmChoice,
    .spawn secondLogin, .perform 1 calmChoice, .perform 1 calmChoice]

/-- Both calls find no row. -/
def racing : List UpsertEvent :=
  [.spawn firstLogin, .spawn secondLogin, .perform 0 calmChoice, .perform 1 calmChoice,
    .perform 0 calmChoice, .perform 1 calmChoice]

def noAccounts : Progress := ⟨⟨initial.world, []⟩, []⟩

theorem upsert_oneRow_inTurn : OneRow (inTurn.foldl (upsertStep sampleSetting) noAccounts) :=
  (@upsert_oneRow sampleSetting initial.world
    ⟨⟨List.nodup_nil, by simp [initial]⟩, fun a ha => absurd ha List.not_mem_nil⟩ _
    (Machine.Run.refl.list (by decide +kernel))).1

theorem racing_twoRows :
    Machine.Run (upsertStep sampleSetting) (fun _ _ => True) noAccounts
        (racing.foldl (upsertStep sampleSetting) noAccounts) ∧
      Table.Unique TelegramAccount.phone noAccounts.rows ∧
      ¬ Table.Unique TelegramAccount.phone
        (racing.foldl (upsertStep sampleSetting) noAccounts).rows := by
  have hrows : (racing.foldl (upsertStep sampleSetting) noAccounts).rows =
      [⟨0, "+86138", "first", true⟩, ⟨1, "+86138", "second", true⟩] := by decide +kernel
  refine ⟨Machine.Run.refl.list (by simp [racing, Machine.AllowedList]),
    fun a ha => absurd ha List.not_mem_nil, fun hunique => ?_⟩
  rw [hrows] at hunique
  have hsame := hunique ⟨0, "+86138", "first", true⟩ (by simp)
    ⟨1, "+86138", "second", true⟩ (by simp) rfl
  exact absurd hsame (by simp)

end SocialMonitor.Accounts
