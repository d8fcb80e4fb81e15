import Feca.Concurrency.Interleaving
import Feca.Push.Ownership
import Feca.Push.Exactness
import Feca.Plans.Drift
import Feca.Plans.Redaction
import Feca.Social.Owner
import Feca.Social.Transitions
import Feca.Social.Consent
import Feca.Social.Invitations
import Feca.Plans.SelfJoin
import Feca.Plans.Conversation
import Feca.Auth.Rotation
import Feca.Content.FeedPaging
import Feca.Content.Rotation
import Feca.Places.Activity
import Feca.Content.DiaryListings
import Feca.Cache.LockOwnership
import Feca.Content.GroupPreview
import Feca.Places.Curation
import Feca.Places.Stored
import Feca.Imports.Queued
import Feca.Imports.RemoteBudget
import Feca.Imports.Retry
import Feca.Imports.Rematching
import Feca.Imports.ArchiveWalk
import Feca.Imports.Callback
import Feca.Imports.LifeCycle
import Feca.Reminders.Today
import Feca.Plans.Authorization
import Feca.Push.Tokens
import Feca.Push.Attempts
import Feca.Push.Starvation
import Feca.Imports.ArchiveUrl
import Feca.Content.Publication
import Feca.Auth.Google
import Feca.Content.Following
import Feca.Plans.JoinRace
import Feca.Imports.ZipReading
import Feca.Imports.ZipSafety
import Feca.Places.OpenNow
import Feca.Places.NearbyOnce
import Feca.Places.OutingPreferences
import Feca.Places.Merging
import Feca.Auth.Username
import Feca.Content.VisitTags
import Feca.Places.Resolve
import Feca.Content.DiaryPositions
import Feca.Cache.InProcess
import Feca.Places.GoogleCache
import Feca.Geo.Bounds
import Feca.Imports.TokenCrypto
import Feca.Places.PlaceIds
import Feca.Places.CategoriesApart
import Feca.Places.PinnedFirst
import Feca.Places.SeededShuffles
import Feca.Places.HomeList
import Feca.Reminders.Hours
import Feca.Push.Inbox
import Feca.Content.FriendPlans
import Feca.Auth.Profiles
import Feca.Places.HiddenPlaces
import Feca.Collections.Drawing
import Feca.Content.Onboarding
