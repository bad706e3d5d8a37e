import SocialMonitor.Messages.List
import SocialMonitor.Monitors.Service
import SocialMonitor.Notifications.Tasks

/-!
# All pages of a list

The three lists deliver every row once if no page ends between two rows of one
time, and otherwise the database may repeat a row and leave out another.
-/

namespace SocialMonitor

/-- The keys of the tables, and the rows that they refer to. -/
structure Intact (s : Store) : Prop where
  messageIds : (s.messages.map Message.id).Nodup
  taskIds : (s.tasks.map NotificationTask.id).Nodup
  targetIds : (s.targets.map MonitorTarget.id).Nodup
  messageTarget : ∀ m ∈ s.messages, (s.target? m.targetId).isSome
  taskMessage : ∀ t ∈ s.tasks, (s.message? t.messageId).isSome
  taskChannel : ∀ t ∈ s.tasks, (s.channel? t.channelId).isSome

section Lists

variable (contains : String → String → Bool) {s : Store} {pageSize : ℕ}

open Messages in
theorem messages_related (hs : Intact s) (filter : MessageWhere) :
    (messageSource contains).Related s filter := by
  intro m hm
  simpa [messageSource] using hs.messageTarget m (List.mem_filter.mp hm).1

open Messages in
theorem messages_id (m : Message) (record : MessageWithTarget)
    (h : (messageSource contains).related s m = some record) : (toDto record).id = m.id := by
  obtain ⟨target, -, rfl⟩ := Option.map_eq_some_iff.mp h
  rfl

open Messages in
theorem messages_deliver_iff (hs : Intact s) (hsize : 0 < pageSize) (query : MessageQueryDto) :
    Listing.Delivers (messageSource contains) s
        (fun page => Messages.list { query with page := some page, pageSize := some pageSize })
          pageSize
        ((messageSource contains).dtos toDto s query.filter) ↔
      Paging.Unsplit Message.publishedAt ((messageSource contains).matching s query.filter)
        pageSize := by
  have hrelated := messages_related contains hs query.filter
  apply Listing.delivers_iff hrelated
  · exact Listing.nodup_dtos hrelated Message.id MessageDto.id (messages_id contains) hs.messageIds
  · exact hsize

open Notifications in
theorem tasks_deliver_iff (hs : Intact s) (hsize : 0 < pageSize) (query : TaskQueryDto) :
    Listing.Delivers taskSource s
        (fun page => listTasks { query with page := some page, pageSize := some pageSize }) pageSize
        (taskSource.dtos toTaskDto s query.filter) ↔
      Paging.Unsplit NotificationTask.createdAt (taskSource.matching s query.filter) pageSize := by
  have hrelated : taskSource.Related s query.filter := by
    intro t ht
    have ht := (List.mem_filter.mp ht).1
    obtain ⟨message, hmessage⟩ := Option.isSome_iff_exists.mp (hs.taskMessage t ht)
    obtain ⟨channel, hchannel⟩ := Option.isSome_iff_exists.mp (hs.taskChannel t ht)
    obtain ⟨target, htarget⟩ :=
      Option.isSome_iff_exists.mp (hs.messageTarget message (List.mem_of_find?_eq_some hmessage))
    simp [taskSource, relations?, hmessage, htarget, hchannel]
  refine Listing.delivers_iff hrelated ?_ hsize
  refine Listing.nodup_dtos hrelated NotificationTask.id TaskDto.id ?_ hs.taskIds
  intro t record hrecord
  simp only [taskSource, relations?, Option.bind_eq_bind, Option.bind_eq_some_iff] at hrecord
  obtain ⟨message, -, target, -, channel, -, hrecord⟩ := hrecord
  obtain rfl := Option.some_inj.mp hrecord
  rfl

open Monitors in
theorem monitors_deliver_iff (hs : Intact s) (hsize : 0 < pageSize) (query : MonitorQueryDto) :
    Listing.Delivers (monitorSource contains) s
        (fun page => Monitors.list { query with page := some page, pageSize := some pageSize })
          pageSize
        ((monitorSource contains).dtos toDto s query.filter) ↔
      Paging.Unsplit MonitorTarget.createdAt ((monitorSource contains).matching s query.filter)
        pageSize := by
  have hrelated : (monitorSource contains).Related s query.filter := fun t _ => rfl
  refine Listing.delivers_iff hrelated ?_ hsize
  refine Listing.nodup_dtos hrelated MonitorTarget.id MonitorDto.id ?_ hs.targetIds
  intro t record hrecord
  obtain rfl := Option.some_inj.mp hrecord
  rfl

end Lists

/-- The pages of each list hold every row that matches once, and `total` is
their number, exactly if no page ends between two rows of one time. -/
theorem lists_deliver_iff (contains : String → String → Bool) {s : Store}
    (hs : Intact s) {pageSize : ℕ}
    (hsize : 0 < pageSize) :
    (∀ query : Messages.MessageQueryDto, Listing.Delivers (Messages.messageSource contains) s
        (fun page => Messages.list { query with page := some page, pageSize := some pageSize })
          pageSize
        ((Messages.messageSource contains).dtos Messages.toDto s query.filter) ↔
      Paging.Unsplit Message.publishedAt ((Messages.messageSource contains).matching s query.filter)
        pageSize) ∧
    (∀ query : Notifications.TaskQueryDto, Listing.Delivers Notifications.taskSource s
        (fun page => Notifications.listTasks
          { query with page := some page, pageSize := some pageSize })
        pageSize (Notifications.taskSource.dtos Notifications.toTaskDto s query.filter) ↔
      Paging.Unsplit NotificationTask.createdAt (Notifications.taskSource.matching s query.filter)
        pageSize) ∧
    ∀ query : Monitors.MonitorQueryDto, Listing.Delivers (Monitors.monitorSource contains) s
        (fun page => Monitors.list { query with page := some page, pageSize := some pageSize })
          pageSize
        ((Monitors.monitorSource contains).dtos Monitors.toDto s query.filter) ↔
      Paging.Unsplit MonitorTarget.createdAt
        ((Monitors.monitorSource contains).matching s query.filter)
        pageSize :=
  ⟨messages_deliver_iff contains hs hsize, tasks_deliver_iff hs hsize,
    monitors_deliver_iff contains hs hsize⟩

/-! ## Two messages of one second -/

def feed : MonitorTarget := ⟨0, .tgGroup, "Group", none, "-100", true, none, 0⟩

def post (id : Id) (publishedAt : Time) : Message :=
  ⟨id, .telegram, "-100", 0, none, none, none, "text", none, publishedAt⟩

def posts (first second : Time) : Store :=
  { Store.empty with targets := [feed], messages := [post 1 first, post 2 second] }

def everything : Messages.MessageQueryDto := ⟨none, none, none, none, none, none, none⟩

theorem posts_intact (first second : Time) : Intact (posts first second) where
  messageIds := by simp [posts, post]
  taskIds := List.nodup_nil
  targetIds := List.nodup_singleton _
  messageTarget := by simp [posts, post, feed, Store.target?]
  taskMessage := fun t ht => absurd ht List.not_mem_nil
  taskChannel := fun t ht => absurd ht List.not_mem_nil

theorem lists_deliver_posts :
    Listing.Delivers (Messages.messageSource fun _ _ => true) (posts 1000 2000)
      (fun page => Messages.list { everything with page := some page, pageSize := some 1 }) 1
      ((Messages.messageSource fun _ _ => true).dtos Messages.toDto (posts 1000 2000)
        everything.filter) := by
  refine ((lists_deliver_iff (fun _ _ => true) (posts_intact 1000 2000) Nat.one_pos).1
    everything).mpr ?_
  intro k hk hlt
  obtain rfl : k = 1 := by
    change k * 1 < 2 at hlt
    omega
  exact ⟨2000, by decide⟩

/-- The second page begins with the row that the first one ends with. -/
theorem posts_not_delivered : Intact (posts 1000 1000) ∧
    ¬ Listing.Delivers (Messages.messageSource fun _ _ => true) (posts 1000 1000)
      (fun page => Messages.list { everything with page := some page, pageSize := some 1 }) 1
      ((Messages.messageSource fun _ _ => true).dtos Messages.toDto (posts 1000 1000)
        everything.filter) := by
  refine ⟨posts_intact 1000 1000, fun hdelivers => ?_⟩
  have hperm := (hdelivers (fun page _ => { calm with pick := page }) fun _ _ => rfl).2
  revert hperm
  decide +kernel

end SocialMonitor
