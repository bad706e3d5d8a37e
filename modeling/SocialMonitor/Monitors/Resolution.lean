import SocialMonitor.Monitors.Calls
import SocialMonitor.Telegram.IngestRun

/-!
# Resolving a chat

A message of a chat is stored for an enabled target of either Telegram type
with that external id, whichever the database finds first.  The key of the table has the
type in it.
-/

namespace SocialMonitor.Monitors

open Async Messages

def Listens (t : MonitorTarget) : Prop := isTelegram t.type = true ∧ t.enabled = true

/-- Both rows take the messages of one chat, and their keys differ all the same. -/
def Clash (t t' : MonitorTarget) : Prop :=
  Listens t ∧ Listens t' ∧ t.externalId = t'.externalId ∧ t.type ≠ t'.type

instance (t : MonitorTarget) : Decidable (Listens t) := by
  unfold Listens
  infer_instance

instance (t t' : MonitorTarget) : Decidable (Clash t t') := by
  unfold Clash
  infer_instance

/-- The row that an operation is to write clashes with no other. -/
def Fits (s : Store) (c : Choice) : Monitors.Op → Prop
  | .create data => ∀ t ∈ s.targets, ¬ Clash t (targetRow data s.nextId c.now)
  | .update id data => ∀ t ∈ s.target? id, ∀ row ∈ (updatedRow data t).toOption,
      ∀ t' ∈ s.targets, t'.id ≠ id → ¬ Clash t' row
  | _ => True

instance (s : Store) (c : Choice) (op : Monitors.Op) : Decidable (Fits s c op) := by
  cases op <;> unfold Fits <;> infer_instance

def Fitting (P : MonitorPool) : MonitorEvent → Prop
  | .perform index choice => ∀ op ∈ P.awaited? index, Fits P.store choice op
  | _ => True

instance (P : MonitorPool) (e : MonitorEvent) : Decidable (Fitting P e) :=
  match e with
  | .perform index choice =>
      inferInstanceAs (Decidable (∀ op ∈ P.awaited? index, Fits P.store choice op))
  | .spawn _ => .isTrue trivial
  | .env _ => .isTrue trivial

def Separate (targets : List MonitorTarget) : Prop :=
  ∀ t ∈ targets, ∀ t' ∈ targets, ¬ Clash t t'

theorem Clash.symm {t t' : MonitorTarget} (h : Clash t t') : Clash t' t :=
  ⟨h.2.1, h.1, h.2.2.1.symm, fun heq => h.2.2.2 heq.symm⟩

theorem Clash.irrefl (t : MonitorTarget) : ¬ Clash t t := fun h => h.2.2.2 rfl

theorem Separate.append {targets : List MonitorTarget} (h : Separate targets) {row : MonitorTarget}
    (hrow : ∀ t ∈ targets, ¬ Clash t row) : Separate (targets ++ [row]) := by
  intro t hmem t' hmem'
  rcases List.mem_append.mp hmem with ht | ht <;> rcases List.mem_append.mp hmem' with ht' | ht'
  · exact h t ht t' ht'
  · obtain rfl := List.mem_singleton.mp ht'
    exact hrow t ht
  · obtain rfl := List.mem_singleton.mp ht
    exact fun hclash => hrow t' ht' hclash.symm
  · rw [List.mem_singleton.mp ht, List.mem_singleton.mp ht']
    exact Clash.irrefl row

theorem Separate.replace {targets : List MonitorTarget} (h : Separate targets) {id : Id}
    {row : MonitorTarget} (hrow : ∀ t ∈ targets, t.id ≠ id → ¬ Clash t row) :
    Separate (targets.map fun t => if t.id = id then row else t) := by
  intro a ha b hb
  obtain ⟨t, ht, rfl⟩ := List.mem_map.mp ha
  obtain ⟨t', ht', rfl⟩ := List.mem_map.mp hb
  by_cases hid : t.id = id <;> by_cases hid' : t'.id = id
  · simpa only [hid, hid', if_true] using Clash.irrefl row
  · simp only [hid, hid', if_true, if_false]
    exact fun hclash => hrow t' ht' hid' hclash.symm
  · simp only [hid, hid', if_true, if_false]
    exact hrow t ht hid
  · simp only [hid, hid', if_false]
    exact h t ht t' ht'

theorem exec_separate {s : Store} {c : Choice} {op : Monitors.Op} (hs : Separate s.targets)
    (hfits : Fits s c op) : Separate (Monitors.exec c op s).2.targets := by
  have hwrite := exec_write c op s
  generalize (Monitors.exec c op s).2.targets = targets at hwrite
  cases hwrite with
  | kept => exact hs
  | created data createdAt hkey => exact hs.append hfits
  | updated id data t row ht hrow hkey =>
      exact hs.replace (hfits t ht row (by simp [hrow, Except.toOption]))
  | deleted id =>
      exact fun t ht t' ht' => hs t (List.mem_filter.mp ht).1 t' (List.mem_filter.mp ht').1

theorem separate_of_run {P : MonitorPool} (hrun : system.Run Fitting initial P) :
    Separate P.store.targets := by
  refine hrun.invariant (fun P => Separate P.store.targets) ?_ ?_ ?_ ?_
  · simp [initial, Store.empty, Separate]
  · exact fun P r _ h _ => h
  · intro P index choice call op next _ h hfitting hget hrest
    exact exec_separate h (hfitting op (Pool.awaited?_eq hget hrest))
  · exact fun P change => change.elim

/-! ## One answer for a chat -/

theorem nodup_of_sound {s : Store} (hs : Sound s) : s.targets.Nodup := .of_map _ hs.targets.nodup

theorem telegramTargets_length {s : Store} (hs : Sound s) (hseparate : Separate s.targets)
    (chatId : String) : (telegramTargets s chatId).length ≤ 1 := by
  have hsame : ∀ t ∈ telegramTargets s chatId, ∀ t' ∈ telegramTargets s chatId, t = t' := by
    intro t ht t' ht'
    simp only [telegramTargets, List.mem_filter, Bool.and_eq_true, decide_eq_true_eq] at ht ht'
    obtain ⟨hmem, ⟨htype, hext⟩, henabled⟩ := ht
    obtain ⟨hmem', ⟨htype', hext'⟩, henabled'⟩ := ht'
    have hclash := hseparate t hmem t' hmem'
    have hkey : t.type = t'.type := by
      by_contra hne
      exact hclash ⟨⟨htype, henabled⟩, ⟨htype', henabled'⟩, hext.trans hext'.symm, hne⟩
    exact hs.targetKeys t hmem t' hmem' (Prod.ext hkey (hext.trans hext'.symm))
  have hnodup : (telegramTargets s chatId).Nodup := (nodup_of_sound hs).filter _
  rcases hlist : telegramTargets s chatId with _ | ⟨t, _ | ⟨t', rest⟩⟩
  · simp
  · simp
  · rw [hlist] at hsame hnodup
    obtain rfl := hsame t (by simp) t' (by simp)
    simp at hnodup

/-- The choices differ in the row that comes first only. -/
def AlikeButPick (choices choices' : ℕ → Choice) : Prop :=
  ∀ n, choices' n = { choices n with pick := (choices' n).pick }

theorem find_congr {s : Store} {chatId : String} (hone : (telegramTargets s chatId).length ≤ 1)
    (c : Choice) (pick : ℕ) :
    Messages.exec { c with pick := pick } (.findTelegramTargetByExternalId chatId) s =
      Messages.exec c (.findTelegramTargetByExternalId chatId) s := by
  rcases hlist : telegramTargets s chatId with _ | ⟨t, _ | ⟨t', rest⟩⟩
  · simp [Messages.exec, hlist, Choice.query]
  · simp [Messages.exec, hlist, Choice.query, Nat.mod_one]
  · simp [hlist] at hone

/-- Where a chat has one target, the ingestion of a message does not depend on
which row comes first. -/
theorem ingest_congr {s : Store} (expected : String) (secret : Option String)
    (payload : Telegram.IngestTelegramMessageDto)
    (hone : (telegramTargets s payload.chatId).length ≤ 1) {choices choices' : ℕ → Choice}
    (halike : AlikeButPick choices choices') :
    (Telegram.ingest expected secret payload).run Messages.exec choices s =
      (Telegram.ingest expected secret payload).run Messages.exec choices' s := by
  have hfind : Messages.exec (choices 0) (.findTelegramTargetByExternalId payload.chatId) s =
      Messages.exec (choices' 0) (.findTelegramTargetByExternalId payload.chatId) s := by
    rw [halike 0]
    exact (find_congr hone (choices 0) _).symm
  have hexec : ∀ (key : MessageSource × String) (n : ℕ) (op : Messages.Op) (s : Store),
      Telegram.Stores key op →
        Messages.exec (choices n) op s = Messages.exec (choices' n) op s := by
    intro key n op s hop
    rw [halike n]
    cases op with
    | findTelegramTargetByExternalId chatId => exact hop.elim
    | _ => rfl
  unfold Telegram.ingest
  split_ifs with hsecret
  · rfl
  · simp only [Program.bind_def, Program.await, Program.bind, Program.run, hfind]
    refine Program.Awaits.run_congr (P := Telegram.Stores (Telegram.messageKeyOf payload)) ?_
      (fun n op s hop => hexec _ (n + 1) op s hop) _
    generalize (Messages.exec (choices' 0) (.findTelegramTargetByExternalId payload.chatId) s).1 =
      found
    rcases found with e | (_ | target)
    · exact trivial
    · exact trivial
    · exact ((Telegram.create_awaits _).bind fun saved => Program.awaits_ret _).handle
        fun error => Program.awaits_ret _

/-- In every run whose writes fit, a chat has at most one target, and neither the
lookup nor the ingestion of a message depends on which row comes first. -/
theorem resolution_unambiguous {P : MonitorPool} (hrun : system.Run Fitting initial P) {s : Store}
    (htargets : s.targets = P.store.targets) :
    (∀ chatId, (telegramTargets s chatId).length ≤ 1) ∧
      (∀ chatId (c : Choice) (pick : ℕ),
        Messages.exec { c with pick := pick } (.findTelegramTargetByExternalId chatId) s =
          Messages.exec c (.findTelegramTargetByExternalId chatId) s) ∧
      ∀ expected secret payload (choices choices' : ℕ → Choice), AlikeButPick choices choices' →
        (Telegram.ingest expected secret payload).run Messages.exec choices s =
          (Telegram.ingest expected secret payload).run Messages.exec choices' s := by
  have hone : ∀ chatId, (telegramTargets s chatId).length ≤ 1 := by
    intro chatId
    have hlength := telegramTargets_length (reachable_of_run hrun).sound
        (separate_of_run hrun) chatId
    simpa only [telegramTargets, htargets] using hlength
  refine ⟨hone, fun chatId c pick => find_congr (hone chatId) c pick, ?_⟩
  exact fun expected secret payload choices choices' halike =>
    ingest_congr expected secret payload (hone _) halike

/-! ## A chat that is configured as a channel and as a group -/

def channelDto : CreateMonitorDto := ⟨.tgChannel, "channel", .undefined, .value "-1001"⟩

def groupDto (externalId : String) : CreateMonitorDto :=
  ⟨.tgGroup, "group", .undefined, .value externalId⟩

/-- A channel is created, and then a group. -/
def createBoth (externalId : String) : List MonitorEvent :=
  [.spawn (.create channelDto), .perform 0 calm, .perform 0 calm,
    .spawn (.create (groupDto externalId)), .perform 1 calm, .perform 1 calm]

theorem resolution_unambiguous_group :
    (telegramTargets (system.runList initial (createBoth "-1002")).store "-1001").length ≤ 1 := by
  have hrun : system.Run Fitting initial (system.runList initial (createBoth "-1002")) :=
    Machine.Run.refl.list (by decide +kernel)
  exact (resolution_unambiguous hrun rfl).1 "-1001"

/-- One chat with two targets: the database may answer with either. -/
theorem resolution_ambiguous :
    system.Run (fun _ _ => True) initial (system.runList initial (createBoth "-1001")) ∧
      (telegramTargets (system.runList initial (createBoth "-1001")).store "-1001").length = 2 ∧
      (Messages.exec calm (.findTelegramTargetByExternalId "-1001")
          (system.runList initial (createBoth "-1001")).store).1 ≠
        (Messages.exec { calm with pick := 1 } (.findTelegramTargetByExternalId "-1001")
          (system.runList initial (createBoth "-1001")).store).1 := by
  refine ⟨Machine.Run.refl.list (by simp [Machine.AllowedList, createBoth]), by decide +kernel, ?_⟩
  intro hsame
  have htypes := congrArg (fun found : Except ApiError (Option MonitorTarget) =>
    (found.toOption.bind id).map MonitorTarget.type) hsame
  revert htypes
  decide +kernel

end SocialMonitor.Monitors
