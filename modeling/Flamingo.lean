import Flamingo.Lib.Machine
import Flamingo.Lib.Interleaved
import Flamingo.Lib.Prefixes
import Flamingo.Lib.StableSort
import Flamingo.Lib.Replicas
import Flamingo.Lib.Trap
import Flamingo.Lib.Ledger
import Flamingo.Lib.Slots
import Flamingo.Lib.ObjectStore
import Flamingo.Lib.Filtered
import Flamingo.Lib.Fold
import Flamingo.Lib.Writes
import Flamingo.Lib.Balance
import Flamingo.Lib.Progression
import Flamingo.Lib.Separated
import Flamingo.Lib.Mask
import Flamingo.Lib.Utf16
import Flamingo.Lib.Moves
import Flamingo.Lib.EarlyReturn
import Flamingo.Lib.QuotedLiteral
import Flamingo.Lib.NumberTexts
import Flamingo.Foundation.Date
import Flamingo.Foundation.Gregorian
import Flamingo.Foundation.Text
import Flamingo.Foundation.DateFormatter
import Flamingo.Foundation.NSString
import Flamingo.Helpers.SupportAllFunc
import Flamingo.DBManager.Firestore
import Flamingo.DBManager.ModelDataBase
import Flamingo.DBManager.DataEntry
import Flamingo.DBManager.StartTimes
import Flamingo.DBManager.FirebaseManager
import Flamingo.DBManager.StorageManager
import Flamingo.DBManager.ManagedObject
import Flamingo.DBManager.Results
import Flamingo.DBManager.Sync
import Flamingo.DBManager.Passes
import Flamingo.DBManager.Convergence
import Flamingo.DBManager.KeptRecords
import Flamingo.DBManager.Traps
import Flamingo.DBManager.ExactId
import Flamingo.DBManager.TornUpdate
import Flamingo.DBManager.ConcurrentEdits
import Flamingo.DBManager.Idempotence
import Flamingo.DBManager.Favorites
import Flamingo.DBManager.Copies
import Flamingo.DBManager.Catalogue
import Flamingo.DBManager.Published
import Flamingo.PresentService.CelendarVC
import Flamingo.PresentService.MakeAppointmentVC
import Flamingo.PresentService.CalendarRuns
import Flamingo.PresentService.MonthGrid
import Flamingo.PresentService.MonthWindow
import Flamingo.PresentService.DateTexts
import Flamingo.PresentService.TappedRow
import Flamingo.PresentService.FreeRows
import Flamingo.PresentService.AppointmentRuns
import Flamingo.PresentService.Booking
import Flamingo.PresentService.Visits
import Flamingo.PresentService.VisitChecks
import Flamingo.PresentService.DoubleBooking
import Flamingo.PresentService.OtherMasters
import Flamingo.PresentService.FreeTimes
import Flamingo.PresentService.Overlap
import Flamingo.PresentService.BookableTimes
import Flamingo.PresentCatalogServicre.SamplePriceListVC
import Flamingo.PresentCatalogServicre.PriceListQueries
import Flamingo.PresentService.DetailServiceVC
import Flamingo.PresentService.LiveReads
import Flamingo.PresentService.FavoriteStar
import Flamingo.DBManager.MasterIds
import Flamingo.PresentCatalogServicre.MasterLists
import Flamingo.PresentCatalogServicre.SharedPicker
import Flamingo.PresentComments.PresentCommentsVC
import Flamingo.PresentComments.MalformedDocuments
import Flamingo.PresentAddNewComment.AddNewCommentVC
import Flamingo.PresentComments.CommentRuns
import Flamingo.DBManager.RoundTrip
import Flamingo.PresentMaster.AddNewMasterVC
import Flamingo.PresentService.Submission
import Flamingo.Lists.ListVC
import Flamingo.Lists.SwipeDelete
import Flamingo.AccauntPage.SampleServiceEmptyVC
import Flamingo.AccauntPage.OwnRecords
import Flamingo.AccauntPage.LiveEntries
import Flamingo.AccauntPage.EntryDevices
import Flamingo.AccauntPage.EntryStores
import Flamingo.RegistrationPage.RegistrationVC
import Flamingo.RegistrationPage.SavedObjects
import Flamingo.RegistrationPage.OneAccount
import Flamingo.RegistrationPage.StoredAccounts
import Flamingo.RegistrationPage.PhoneField
import Flamingo.RegistrationPage.CompleteAccounts
import Flamingo.PresentService.CompleteEntries
import Flamingo.Editors.Cloud
import Flamingo.Editors.Images
import Flamingo.Editors.Orphans
import Flamingo.Editors.EditFailure
import Flamingo.Editors.Forms
import Flamingo.Editors.Attempts
import Flamingo.Editors.UnchangedEdit
