import MeJournal.Memory.RemoteMirror
import MeJournal.Memory.RowHistory
import MeJournal.Memory.LocalWrites
import MeJournal.Memory.StalePatches
import MeJournal.Memory.UntypedErrors
import MeJournal.Memory.RequestsFinish
import MeJournal.Memory.WellFormed
import MeJournal.Memory.OwnRows
import MeJournal.CursorErrors
import MeJournal.Memory.Hydration
import MeJournal.Memory.SearchOrder
import MeJournal.Chat.Attribution
import MeJournal.Chat.Isolation
import MeJournal.Chat.Deletion
import MeJournal.Chat.Retries
import MeJournal.Chat.Listing
import MeJournal.Chat.Steps
import MeJournal.Auth.LostFailures
import MeJournal.Auth.StepUp
import MeJournal.Agents.CallIds
import MeJournal.Agents.ManageMemory
import MeJournal.Mobile.Chunks
import MeJournal.Mobile.Sends
import MeJournal.Mobile.AuthStore
import MeJournal.Mobile.ChatSession
import MeJournal.Mobile.ReplayRoundTrip
import MeJournal.Mobile.MemoryCards
import MeJournal.Memory.Patches
import MeJournal.Memory.CanonicalHash
import MeJournal.Chat.History
import MeJournal.Memory.Transactions
import MeJournal.Agents.Fragments
import MeJournal.Agents.Environments
import MeJournal.Agents.OtherUsers
import MeJournal.Agents.Results
import MeJournal.Memory.Convergence
import MeJournal.Chat.Titles
import MeJournal.Auth.Tokens
import MeJournal.Mobile.ChatHistory
import MeJournal.Mobile.Delivery
import MeJournal.Mobile.MemoryAdded
import MeJournal.Mobile.Composer
import MeJournal.Auth.Addresses
import MeJournal.Mobile.SignIn
import MeJournal.Mobile.SignedIn
