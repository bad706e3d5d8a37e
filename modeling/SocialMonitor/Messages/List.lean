import SocialMonitor.Js.Text
import SocialMonitor.Listing
import SocialMonitor.Messages.Create

/-!
# Listing messages

`MessageService.list`.  How the database matches a keyword is a parameter.
-/

namespace SocialMonitor.Messages

open Async

structure MessageQueryDto where
  page : Option ℕ
  pageSize : Option ℕ
  source : Option MessageSource
  targetId : Option Id
  keyword : Option String
  dateFrom : Option Time
  dateTo : Option Time

/-- `Prisma.MessageWhereInput`. -/
structure MessageWhere where
  source : Option MessageSource
  targetId : Option Id
  keyword : Option String
  gte : Option Time
  lte : Option Time

def MessageQueryDto.filter (query : MessageQueryDto) : MessageWhere where
  source := query.source
  targetId := query.targetId
  keyword := query.keyword.bind Js.nonempty?
  gte := query.dateFrom
  lte := query.dateTo

variable (contains : String → String → Bool)

def MessageWhere.selects (w : MessageWhere) (m : Message) : Bool :=
  w.source.all (fun source => m.source = source) &&
    w.targetId.all (fun targetId => m.targetId = targetId) &&
    w.keyword.all (fun keyword => contains m.content keyword ||
      [m.authorUsername, m.authorName, m.authorExternalId].any fun column =>
        column.any fun text => contains text keyword) &&
    w.gte.all (fun dateFrom => dateFrom ≤ m.publishedAt) && w.lte.all fun dateTo =>
      m.publishedAt ≤ dateTo

def messageSource : Listing.Source MessageWhere Message MessageWithTarget where
  rows := Store.messages
  selects := MessageWhere.selects contains
  orderBy := Message.publishedAt
  related s m := (s.target? m.targetId).map fun target => ⟨m, target⟩

def list (query : MessageQueryDto) : Program (Listing.Op MessageWhere)
    (Listing.Answer MessageWhere MessageWithTarget) ApiError (Listing.Paginated MessageDto) :=
  Listing.list toDto query.filter query.page query.pageSize

end SocialMonitor.Messages
