import Bookswap.Lib.Checked
import Bookswap.Lib.BestOf
import Bookswap.Lib.Table
import Bookswap.Lib.Machine
import Bookswap.Lib.Occupancy
import Bookswap.Lib.SlidingWindow
import Bookswap.Lib.GuardedLink
import Bookswap.Lib.LinkTallies
import Bookswap.Domain
import Bookswap.Schema
import Bookswap.Access
import Bookswap.Loans.Transitions
import Bookswap.Loans.Lifecycle
import Bookswap.Loans.Rivals
import Bookswap.Loans.Dossier
import Bookswap.Loans.Coherence
import Bookswap.Loans.CoherenceRules
import Bookswap.Loans.LoanService
import Bookswap.Loans.LoanSpec
import Bookswap.Loans.LoanCoherence
import Bookswap.ExternalBorrowers.Retention
import Bookswap.Guests.GuestLoanService
import Bookswap.Guests.GuestConfirmationSecrets
import Bookswap.Guests.GuestLoanConfirmationService
import Bookswap.Guests.GuestLoanResponseService
import Bookswap.Guests.GuestSpec
import Bookswap.Guests.GuestCoherence
import Bookswap.Library.LibraryService
import Bookswap.ExternalBorrowers.ExternalBorrowersService
import Bookswap.Library.LibrarySpec
import Bookswap.Library.LibraryCoherence
import Bookswap.System
import Bookswap.Library.LibraryMapper
import Bookswap.Users.ProfileSummary
import Bookswap.Guarantees.CopyLoan
import Bookswap.Guarantees.Progress
import Bookswap.Guarantees.EventLog
import Bookswap.Guarantees.Rejections
import Bookswap.Guarantees.ProfilePlace
import Bookswap.Friends.FriendshipTransitions
import Bookswap.Friends.SocialSchema
import Bookswap.Friends.FriendsService
import Bookswap.Invitations.InvitationsService
import Bookswap.SocialSystem
import Bookswap.Friends.SocialSpec
import Bookswap.Friends.PairInvariant
import Bookswap.Invitations.InvitationInvariant
import Bookswap.Invitations.EmailLimits
import Bookswap.Guarantees.FriendshipPair
import Bookswap.Guarantees.FriendshipConsent
import Bookswap.Guarantees.InvitationAcceptance
import Bookswap.Guarantees.EmailInvitations
import Bookswap.Notifications.DispatcherService
import Bookswap.Notifications.DispatcherInvariant
import Bookswap.Guarantees.Delivery
import Bookswap.Notifications.DigestService
import Bookswap.Notifications.DigestInvariant
import Bookswap.Guarantees.Digests
import Bookswap.Guarantees.DueSoonReminder
import Bookswap.Lib.ReadCommitted
import Bookswap.Catalog.CatalogSchema
import Bookswap.Catalog.EditionLanguage
import Bookswap.QuickAdd.QuickAddRequest
import Bookswap.QuickAdd.ExternalSources
import Bookswap.QuickAdd.CatalogChain
import Bookswap.Catalog.CatalogStore
import Bookswap.Catalog.CatalogService
import Bookswap.Catalog.MergeService
import Bookswap.QuickAdd.QuickAddService
import Bookswap.QuickAdd.QuickAddInvariant
import Bookswap.QuickAdd.QuickAddOutcome
import Bookswap.Guarantees.QuickAddIdempotent
import Bookswap.Auth.AuthService
import Bookswap.Auth.AuthShutdown
import Bookswap.Guarantees.PasswordReset
import Bookswap.Guarantees.GracefulShutdown
import Bookswap.Telegram.TelegramLinkService
import Bookswap.Telegram.LinkInvariant
import Bookswap.Guarantees.TelegramLinking
import Bookswap.QuickAdd.RecordRace
import Bookswap.Lib.Normalizing
import Bookswap.Import.RowValues
import Bookswap.Import.RowRecord
import Bookswap.Import.ImportRows
import Bookswap.Import.ImportDraft
import Bookswap.Lib.Service
import Bookswap.Import.ImportStore
import Bookswap.Import.RowActions
import Bookswap.Lib.Grouping
import Bookswap.Import.ImportCommit
import Bookswap.Import.ImportWriter
import Bookswap.Import.ImportRepository
import Bookswap.Import.ImportService
import Bookswap.Import.DraftRuns
import Bookswap.Import.ImportInvariant
import Bookswap.Import.ImportContract
import Bookswap.Guarantees.ImportLifecycle
import Bookswap.Guarantees.DraftConcurrency
import Bookswap.Guarantees.ImportConserved
import Bookswap.Catalog.WorkRows
import Bookswap.Guarantees.MergeForest
import Bookswap.Guarantees.MergeConfluence
import Bookswap.Guarantees.RejectedCells
import Bookswap.Guarantees.NewWorkChoice
import Bookswap.Lib.ScriptTriples
import Bookswap.Catalog.CatalogCoherence
import Bookswap.Catalog.ChainCoherence
import Bookswap.Catalog.ImportCoherence
import Bookswap.Catalog.PatchCoherence
import Bookswap.Catalog.CatalogRuns
import Bookswap.Users.AvatarService
import Bookswap.Guarantees.ProfilePhoto
import Bookswap.Guarantees.CatalogLanguages
import Bookswap.Lib.Lists
import Bookswap.Lib.WorkerPool
import Bookswap.Catalog.LookupService
import Bookswap.Guarantees.LookupVerdicts
import Bookswap.Lib.Newest
import Bookswap.Guarantees.ProfileActivity
import Bookswap.History.HistoryMapper
import Bookswap.Guarantees.LoanEndings
import Bookswap.Lib.Growth
import Bookswap.Search.MergeExternalResults
import Bookswap.Search.MergeInvariant
import Bookswap.Search.ExternalSearchService
import Bookswap.Guarantees.SearchPool
import Bookswap.Web.ResourceState
import Bookswap.Web.UseResource
import Bookswap.Guarantees.ResourceAnswers
import Bookswap.Lib.OrderedMap
import Bookswap.Web.Wishlist
import Bookswap.Web.UseWishlist
import Bookswap.Guarantees.ResourceHistory
import Bookswap.Web.WishlistJournal
import Bookswap.Guarantees.WishlistOverlay
import Bookswap.Lib.Labels
import Bookswap.Web.QuickAddSlots
import Bookswap.Web.UseQuickAdd
import Bookswap.Guarantees.SlotIdentity
import Bookswap.Lib.Texts
import Bookswap.Search.ProviderRateLimiter
import Bookswap.Guarantees.OutboundRate
import Bookswap.Lib.FirstOfKey
import Bookswap.Guarantees.DuplicateRows
import Bookswap.Guarantees.ResolvedCatalog
import Bookswap.Lib.BestOfKey
import Bookswap.Search.SpellingSuggestion
import Bookswap.Search.SearchRelevance
import Bookswap.Guarantees.RelevanceTiers
import Bookswap.Lib.Rounding
import Bookswap.Lib.Rearranged
import Bookswap.Analytics.FunnelReport
import Bookswap.Guarantees.FunnelInvariants
import Bookswap.Import.XlsxContainer
import Bookswap.Guarantees.ZipGate
import Bookswap.Lib.KeysetPaging
import Bookswap.ExternalBorrowers.RetentionCleanup
import Bookswap.Guarantees.RetentionLoops
import Bookswap.Lib.Base64Url
import Bookswap.Lib.Utf8
import Bookswap.Lib.IsoDate
import Bookswap.Lib.JsonStrings
import Bookswap.ReadingStatus.ReadingListCursor
import Bookswap.ReadingStatus.ReadingStatusService
import Bookswap.Guarantees.ReadingPages
import Bookswap.Import.LibraryImportFile
import Bookswap.Guarantees.FileReading
import Bookswap.Lib.LeastRecent
import Bookswap.Search.ExternalSearchCache
import Bookswap.Guarantees.BlockCache
import Bookswap.Lib.PageSlices
import Bookswap.Search.SearchPages
import Bookswap.Guarantees.SearchPages
import Bookswap.Lib.ScriptTrials
import Bookswap.QuickAdd.QuickAddFailures
import Bookswap.QuickAdd.CanonicalContent
import Bookswap.Guarantees.ContentHash
import Bookswap.Catalog.CatalogKeys
import Bookswap.Guarantees.PreparedAdds
import Bookswap.Guarantees.StatusRace
import Bookswap.Loans.LoanChanges
import Bookswap.Guests.GuestCodes
import Bookswap.Guarantees.LoanFacts
import Bookswap.Guests.GuestLinks
import Bookswap.Guarantees.GuestAnswers
import Bookswap.ExternalBorrowers.Deadlines
import Bookswap.Guarantees.ContactDeadlines
import Bookswap.Guarantees.ContactErasure
import Bookswap.Lib.Comparator
import Bookswap.Library.Reading
import Bookswap.Search.NetworkInventory
import Bookswap.Search.NetworkPages
import Bookswap.Guarantees.NetworkPages
import Bookswap.History.HistoryService
import Bookswap.Library.PublicView
import Bookswap.Guarantees.PrivateFacts
