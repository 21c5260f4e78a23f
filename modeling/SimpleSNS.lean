import SimpleSNS.Async.DispatchGroup
import SimpleSNS.Async.Program
import SimpleSNS.Async.Network
import SimpleSNS.Async.Device
import SimpleSNS.Json.Tree
import SimpleSNS.Json.Cast
import SimpleSNS.Models
import SimpleSNS.APIHandler.FetchAllPost
import SimpleSNS.APIHandler.PostFanIn
import SimpleSNS.APIHandler.FetchUsers
import SimpleSNS.APIHandler.Writers
import SimpleSNS.APIHandler.Handler
import SimpleSNS.APIHandler.UserFanIn
import SimpleSNS.APIHandler.FriendFanIn
import SimpleSNS.APIHandler.FriendJoin
import SimpleSNS.APIHandler.PostJoin
import SimpleSNS.APIHandler.Publication
import SimpleSNS.APIHandler.SessionChange
import SimpleSNS.APIHandler.Profiles
import SimpleSNS.APIHandler.Registration
import SimpleSNS.Async.Machine
import SimpleSNS.UIKit.Table
import SimpleSNS.Main.Screens
import SimpleSNS.Main.RowBlocks
import SimpleSNS.Main.Unfriend
import SimpleSNS.Async.Listener
import SimpleSNS.Main.Loads
import SimpleSNS.Main.Search
import SimpleSNS.Main.SignUp
import SimpleSNS.APIHandler.UserSessions
import SimpleSNS.Main.EditProfile
import SimpleSNS.Main.GMap
import SimpleSNS.Main.Consumers
import SimpleSNS.APIHandler.RoundTrip
import SimpleSNS.Async.Client
import SimpleSNS.APIHandler.Answers
import SimpleSNS.Main.Hud
import SimpleSNS.Main.App
import SimpleSNS.Async.History
import SimpleSNS.Json.Table
import SimpleSNS.APIHandler.Social
import SimpleSNS.APIHandler.Readers
import SimpleSNS.APIHandler.Feed
import SimpleSNS.APIHandler.Friends
import SimpleSNS.APIHandler.Members
import SimpleSNS.APIHandler.Traps
import SimpleSNS.APIHandler.Timelines
import SimpleSNS.APIHandler.Ownership
import SimpleSNS.Database.Radix
import SimpleSNS.Database.Key
import SimpleSNS.APIHandler.Outcomes
import SimpleSNS.Database.PushId
import SimpleSNS.Main.Messages
import SimpleSNS.Main.MessageBar
import SimpleSNS.Database.Sorted
import SimpleSNS.Database.FLLRBNode
import SimpleSNS.Database.Balanced
import SimpleSNS.Database.Removal
import SimpleSNS.Database.FTreeSortedDictionary
import SimpleSNS.Database.TreeBuilder
import SimpleSNS.Database.FArraySortedDictionary
import SimpleSNS.Database.FImmutableSortedDictionary
import SimpleSNS.Database.Enumerators
import SimpleSNS.Database.Export
import SimpleSNS.Database.Writes
import SimpleSNS.Database.FPath
import SimpleSNS.Database.References
