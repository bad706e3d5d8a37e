import SocialMonitor.Sidecar.Current

/-!
# Serving one request

A handler that runs to its end while no other does.  The outcomes of the calls
that it awaits are given, and calls beyond them fail.
-/

namespace SocialMonitor.Sidecar

/-- The calls that a task may still await. -/
def Task.left : Task → ℕ
  | .ended _ => 0
  | .running (.json _) => 5
  | .running (.previousDisconnect _ _ _) => 4
  | .running (.connect _ _ _) => 3
  | .running (.sendCode _ _) => 2
  | .running _ => 1

def Task.result : Task → Except ApiError Reply
  | .ended result => result
  | .running _ => .error ⟨500, "INTERNAL_ERROR", ""⟩

namespace TelegramWorker

variable (config : Config)

/-- An outcome that the awaited call does not have is passed over. -/
def proceed (s : TelegramWorker × Task) (outcome : Outcome) : TelegramWorker × Task :=
  match s.2 with
  | .running await => (s.1.resume config await outcome).getD s
  | .ended _ => s

def finish (s : TelegramWorker × Task) (outcomes : List Outcome) : TelegramWorker × Task :=
  (outcomes ++ List.replicate s.2.left (Outcome.failed "")).foldl (proceed config) s

def serve (w : TelegramWorker) (secret : Option String) (request : Request)
    (outcomes : List Outcome) :
    TelegramWorker × Except ApiError Reply :=
  match config.check secret request with
  | .ok () =>
      let ended := finish config (w.handle config request) outcomes
      (ended.1, ended.2.result)
  | .error e => (w, .error e)

/-- `handle_save_session`, where `saved` is what `session.save()` returns. -/
def handleSaveSession (w : TelegramWorker) (secret : Option String) (phone saved : String) :
    Except ApiError String := do
  config.checkSecret secret
  let _ ← w.requireClient (strip phone)
  return saved

/-! ## Every handler ends -/

variable {config}

theorem replace_left (w : TelegramWorker) (handler : Handler) (phone : String) :
    (w.replace handler phone).2.left ≤ 4 := by
  unfold replace register
  split <;> simp [Task.left]

theorem handle_left (w : TelegramWorker) (request : Request) :
    (w.handle config request).2.left ≤ 4 := by
  cases request with
  | loginStart phone =>
      simp only [handle, handleLoginStart]
      split_ifs
      · exact Nat.zero_le 4
      · exact replace_left _ _ _
  | loginCode phone code =>
      simp only [handle, handleLoginCode]
      split
      · exact Nat.zero_le 4
      · split_ifs <;> simp [Task.left]
  | loginPassword phone password =>
      simp only [handle, handleLoginPassword]
      split <;> simp [Task.left]
  | connect phone session =>
      simp only [handle, handleConnect]
      split_ifs
      · exact Nat.zero_le 4
      · exact replace_left _ _ _
      · exact Nat.zero_le 4
  | disconnect phone =>
      simp only [handle, handleDisconnect]
      split <;> simp [Task.left, forget]

/-- Each answer takes a task closer to its end. -/
theorem resume_left {w : TelegramWorker} {await : Await} {outcome : Outcome}
    {s : TelegramWorker × Task}
    (h : w.resume config await outcome = some s) : s.2.left < (Task.running await).left := by
  cases resumes h with
  | handled request => exact (handle_left w request).trans_lt (by simp [Task.left])
  | connected handler phone client => cases handler <;> simp [connectDone, Task.left]
  | _ => simp [Task.left, register, forget, codeSent, authFailed]

/-- An error that the awaited call ends with is always taken. -/
theorem resume_failed (config : Config) (w : TelegramWorker) (await : Await) (error : String) :
    ∃ s, w.resume config await (.failed error) = some s := by
  cases await <;> simp [TelegramWorker.resume, disconnected]

theorem proceed_left (s : TelegramWorker × Task) (outcome : Outcome) :
    (proceed config s outcome).2.left ≤ s.2.left := by
  obtain ⟨w, task⟩ := s
  cases task with
  | ended result => exact le_rfl
  | running await =>
      cases hnext : w.resume config await outcome with
      | none => simp [proceed, hnext]
      | some next =>
          simpa [proceed, hnext] using (resume_left hnext).le

theorem proceed_failed_left (config : Config) (s : TelegramWorker × Task) (error : String) :
    (proceed config s (.failed error)).2.left ≤ s.2.left - 1 := by
  obtain ⟨w, task⟩ := s
  cases task with
  | ended result => exact Nat.zero_le _
  | running await =>
      obtain ⟨next, hnext⟩ := resume_failed config w await error
      have hless := resume_left hnext
      simp only [proceed, hnext, Option.getD_some]
      omega

theorem ended_of_left {t : Task} (h : t.left = 0) : ∃ result, t = .ended result := by
  cases t with
  | ended result => exact ⟨result, rfl⟩
  | running await => cases await <;> simp [Task.left] at h

theorem finish_ended (s : TelegramWorker × Task) (outcomes : List Outcome) :
    ∃ result, (finish config s outcomes).2 = .ended result := by
  have houtcomes : ∀ (outcomes : List Outcome) (s : TelegramWorker × Task),
      (outcomes.foldl (proceed config) s).2.left ≤ s.2.left := by
    intro outcomes
    induction outcomes with
    | nil => exact fun s => le_rfl
    | cons outcome outcomes ih => exact fun s => (ih _).trans (proceed_left s outcome)
  have hfailed : ∀ (k : ℕ) (s : TelegramWorker × Task), s.2.left ≤ k →
      ((List.replicate k (Outcome.failed "")).foldl (proceed config) s).2.left = 0 := by
    intro k
    induction k with
    | zero => exact fun s hs => Nat.le_zero.mp hs
    | succ k ih =>
        intro s hs
        have hnext := proceed_failed_left config s ""
        exact ih _ (by omega)
  apply ended_of_left
  rw [finish, List.foldl_append]
  exact hfailed _ _ (houtcomes outcomes s)

/-! ## A disconnection -/

/-- `handle_disconnect` has taken the client out, or there is no handler left. -/
def Left : Task → Prop
  | .ended _ => True
  | .running await => await.leaves?.isSome

theorem proceed_clients (config : Config) {s : TelegramWorker × Task} (h : Left s.2)
    (outcome : Outcome) :
    (proceed config s outcome).1.clients = s.1.clients ∧ Left (proceed config s outcome).2 := by
  obtain ⟨w, task⟩ := s
  cases task with
  | ended result => exact ⟨rfl, trivial⟩
  | running await =>
      cases hnext : w.resume config await outcome with
      | none => simpa [proceed, hnext] using h
      | some next =>
          cases await with
          | disconnect phone client =>
              obtain ⟨w', hw, rfl⟩ := Option.map_eq_some_iff.mp hnext
              simp [proceed, hnext, forget, Left, disconnected_clients hw]
          | _ => simp [Left, Await.leaves?] at h

theorem finish_clients {s : TelegramWorker × Task} (h : Left s.2) (outcomes : List Outcome) :
    (finish config s outcomes).1.clients = s.1.clients := by
  unfold finish
  generalize outcomes ++ List.replicate s.2.left (Outcome.failed "") = all
  induction all generalizing s with
  | nil => rfl
  | cons outcome all ih =>
      obtain ⟨hclients, hleft⟩ := proceed_clients config h outcome
      exact (ih hleft).trans hclients

/-- However its calls end, a disconnection leaves no client for the phone. -/
theorem serve_disconnect_clients (w : TelegramWorker) {secret : Option String} {phone : String}
    (hcheck : config.check secret (.disconnect phone) = .ok ()) (outcomes : List Outcome) :
    (w.serve config secret (.disconnect phone) outcomes).1.clients =
      Function.update w.clients (strip phone) none := by
  have hhandle : (w.handle config (.disconnect phone)).1.clients =
      Function.update w.clients (strip phone) none ∧
        Left (w.handle config (.disconnect phone)).2 := by
    simp only [handle, handleDisconnect]
    split
    · simp [popClient, popHash, Left, Await.leaves?]
    · simp [popClient, popHash, forget, Left]
  simp only [serve, hcheck]
  exact (finish_clients hhandle.2 outcomes).trans hhandle.1

end TelegramWorker

end SocialMonitor.Sidecar
