import RvHouse.Lib.Mealy
import RvHouse.Lib.Mesh
import RvHouse.Lib.IndexedList
import RvHouse.Lib.ReverseIndex
import RvHouse.Lib.Recent
import RvHouse.Lib.Numeral
import RvHouse.Lib.Istream
import RvHouse.Lib.Runs
import RvHouse.Lib.Scopes
import RvHouse.Lib.PrefixScan
import RvHouse.Lib.Throwing
import RvHouse.Lib.Joined
import RvHouse.Lib.Amortized
import RvHouse.Lib.Distinct
import RvHouse.Chat.UserKey
import RvHouse.Chat.User
import RvHouse.Chat.House
import RvHouse.Chat.HouseCalls
import RvHouse.Chat.StatusAge
import RvHouse.Messaging.Message
import RvHouse.Messaging.Messenger
import RvHouse.Networking.IpBlock
import RvHouse.Networking.IpRanges
import RvHouse.Networking.Handler
import RvHouse.Networking.HandlerSpec
import RvHouse.Networking.Unnamed
import RvHouse.Networking.EndDeref
import RvHouse.Networking.Frame
import RvHouse.Networking.Orphans
import RvHouse.Networking.Posts
import RvHouse.Networking.ArchiveGuard
import RvHouse.Networking.Worker
import RvHouse.Networking.Blocking
import RvHouse.Model.House
import RvHouse.Model.UserUpdate
import RvHouse.Model.StrMap
import RvHouse.Model.Mirror
import RvHouse.Model.Members
import RvHouse.Model.Maps
import RvHouse.Model.Self
import RvHouse.MultiFeed.UserMap
import RvHouse.MultiFeed.RoomUtil
import RvHouse.MultiFeed.Ownership
import RvHouse.MultiFeed.Values
import RvHouse.Http.FetcherHandler
import RvHouse.Http.Connector
import RvHouse.Http.Reply
import RvHouse.Http.RequestHeader
import RvHouse.Http.Connection
import RvHouse.Http.Url
import RvHouse.Lang.Mapper
import RvHouse.Kadc.Util
import RvHouse.Kadc.ContactLine
import RvHouse.Kadc.RoundTrip
import RvHouse.Kadc.PeerLines
import RvHouse.Kadc.Truncated
import RvHouse.Parser.Validation
import RvHouse.Networking.Serverless
import RvHouse.Networking.AddressReply
import RvHouse.Networking.Login
import RvHouse.Networking.LoginHosts
import RvHouse.Networking.LateJoin
import RvHouse.Networking.ExternalIp
import RvHouse.Networking.Contacts
import RvHouse.Parser.UrlDfa
import RvHouse.Gui.FloodControl
import RvHouse.Networking.AppVersion
import RvHouse.Networking.VersionUpdate
import RvHouse.Gui.Ignore
import RvHouse.Gui.OwnAddress
import RvHouse.Gui.Dialogs
import RvHouse.Networking.IgnoreList
import RvHouse.Gui.SavedLogin
import RvHouse.Gui.PrivateChannel
import RvHouse.Gui.StyledContent
import RvHouse.Gui.Filter
import RvHouse.Gui.FilterRuns
import RvHouse.Gui.FilterWindow
import RvHouse.Gui.Join
import RvHouse.Gui.Client
import RvHouse.Gui.Reconnect
import RvHouse.Gui.Joiner
import RvHouse.Gui.RoomWindow
import RvHouse.Gui.RoomHost
import RvHouse.Gui.Places
import RvHouse.Executable.Launcher
import RvHouse.Gui.CommandLine
import RvHouse.Gui.RoomLaunch
import RvHouse.Gui.Admission
import RvHouse.Gui.PrevModel
import RvHouse.Gui.UsersView
import RvHouse.Gui.Desk
import RvHouse.Gui.UsersShown
import RvHouse.Gui.RoomsView
import RvHouse.Gui.RoomsShown
import RvHouse.Networking.Sending
import RvHouse.Networking.PeerSpec
import RvHouse.Networking.Peers
import RvHouse.Networking.Entries
import RvHouse.Networking.Said
import RvHouse.Networking.Convergence
import RvHouse.Networking.Delivery
import RvHouse.Model.Threads
