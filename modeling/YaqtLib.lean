import YaqtLib.AccountData
import YaqtLib.AccountIsolation
import YaqtLib.AlbumRoles
import YaqtLib.AlbumView
import YaqtLib.Albums
import YaqtLib.AlbumsModels
import YaqtLib.AnnouncedRoles
import YaqtLib.AnnouncedSequences
import YaqtLib.Arrivals
import YaqtLib.BoolFilterModel
import YaqtLib.Bytes
import YaqtLib.CallEngine
import YaqtLib.CallNotifications
import YaqtLib.CallRinging
import YaqtLib.CallRuns
import YaqtLib.CallsManager
import YaqtLib.CaptionTemplates
import YaqtLib.ChatActionOrder
import YaqtLib.ChatActionRuns
import YaqtLib.ChatActions
import YaqtLib.ChatData
import YaqtLib.ChatFold
import YaqtLib.ChatFoldersIndex
import YaqtLib.ChatFoldersModel
import YaqtLib.ChatFoldersOrder
import YaqtLib.ChatFoldersReset
import YaqtLib.ChatFoldersRows
import YaqtLib.ChatFoldersUpdate
import YaqtLib.ChatListLoading
import YaqtLib.ChatListModel
import YaqtLib.ChatListOrder
import YaqtLib.ChatListRepeats
import YaqtLib.ChatListSignals
import YaqtLib.ChatLists
import YaqtLib.ChatManager
import YaqtLib.ChatMessagesModel
import YaqtLib.ChatPhotosModel
import YaqtLib.ChatPhotosRows
import YaqtLib.ChatPhotosRuns
import YaqtLib.ChatPositions
import YaqtLib.ChatReferences
import YaqtLib.ChatUpdates
import YaqtLib.CleanupMap
import YaqtLib.CleanupSlots
import YaqtLib.CleanupTidied
import YaqtLib.ClientSessions
import YaqtLib.ClientSetup
import YaqtLib.ClientUpdates
import YaqtLib.CommutingWords
import YaqtLib.ContactOrder
import YaqtLib.ContactQuery
import YaqtLib.Containers
import YaqtLib.EntityLinks
import YaqtLib.EscapedText
import YaqtLib.FileDownloads
import YaqtLib.FileSignals
import YaqtLib.FilteredPositions
import YaqtLib.FilteredRows
import YaqtLib.FirstBatch
import YaqtLib.FolderLists
import YaqtLib.FolderListsOrder
import YaqtLib.FolderListsSettled
import YaqtLib.FormattedText
import YaqtLib.ForumTopicMessagesModel
import YaqtLib.ForumTopicRoles
import YaqtLib.ForumTopicsIndex
import YaqtLib.ForumTopicsLastMessages
import YaqtLib.ForumTopicsModel
import YaqtLib.ForumTopicsOrder
import YaqtLib.ForumTopicsRebuilt
import YaqtLib.ForumTopicsSent
import YaqtLib.FullFormattedText
import YaqtLib.FullInfoReplies
import YaqtLib.GroupKinds
import YaqtLib.HashListings
import YaqtLib.HeldMessages
import YaqtLib.HiddenSpoilers
import YaqtLib.IndexMap
import YaqtLib.InputReplacements
import YaqtLib.LatestAdded
import YaqtLib.LinkExtras
import YaqtLib.LiveTail
import YaqtLib.LiveTailModels
import YaqtLib.MaintainedCount
import YaqtLib.MarkupInjection
import YaqtLib.MatchingRows
import YaqtLib.MediaIndex
import YaqtLib.MediaMessagesModel
import YaqtLib.MediaOrder
import YaqtLib.MessageCopies
import YaqtLib.MessageFold
import YaqtLib.MessageIntake
import YaqtLib.MessageObjects
import YaqtLib.MessagePreview
import YaqtLib.MessageRequests
import YaqtLib.MessageSetters
import YaqtLib.MessagesDeleted
import YaqtLib.MessagesIndex
import YaqtLib.NestedElements
import YaqtLib.NgfInterface
import YaqtLib.NotificationChats
import YaqtLib.NotificationGroups
import YaqtLib.NotificationManager
import YaqtLib.NotificationNoise
import YaqtLib.NotificationRefresh
import YaqtLib.NotificationSession
import YaqtLib.NotificationSteps
import YaqtLib.OnlineFlag
import YaqtLib.OnlyTidies
import YaqtLib.OwnUser
import YaqtLib.Paging
import YaqtLib.PagingAnchors
import YaqtLib.ParsedMarkup
import YaqtLib.ParsedText
import YaqtLib.PinnedRows
import YaqtLib.Placing
import YaqtLib.ProfilePictureIndex
import YaqtLib.ProfilePictureSwitch
import YaqtLib.ProfilePictures
import YaqtLib.QVariant
import YaqtLib.ReadableOrder
import YaqtLib.Receiver
import YaqtLib.RequestExtras
import YaqtLib.Requests
import YaqtLib.ResponseRouting
import YaqtLib.RevealedSpoilers
import YaqtLib.RowSignals
import YaqtLib.RowViews
import YaqtLib.RowViewsModels
import YaqtLib.RunTotals
import YaqtLib.Runs
import YaqtLib.ScrollJumps
import YaqtLib.ScrollPosition
import YaqtLib.SearchPaging
import YaqtLib.Segments
import YaqtLib.SentSequences
import YaqtLib.SequenceModels
import YaqtLib.SequenceRows
import YaqtLib.Sequences
import YaqtLib.SliceRows
import YaqtLib.SortedMap
import YaqtLib.Spacing
import YaqtLib.SponsoredAppend
import YaqtLib.SponsoredRows
import YaqtLib.SponsoredRuns
import YaqtLib.StaleBatches
import YaqtLib.Substitutions
import YaqtLib.SuggestedActions
import YaqtLib.TDLibData
import YaqtLib.TDLibFile
import YaqtLib.TextTemplates
import YaqtLib.WaitingFlags
import YaqtLib.WaitingModels
import YaqtLib.WaveformBars
import YaqtLib.WaveformFields
import YaqtLib.WaveformManager
import YaqtLib.WebProxyManager
import YaqtLib.WellFormedMarkup
import YaqtLib.WovenText
