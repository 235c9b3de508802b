import NfsKlldap.Lib.Text
import NfsKlldap.Lib.KeyedMap
import NfsKlldap.Lib.FirstClaim
import NfsKlldap.Lib.PushNew
import NfsKlldap.Lib.ListsInStep
import NfsKlldap.Identity.Principal
import NfsKlldap.Identity.CanonicalForm
import NfsKlldap.Identity.Getent
import NfsKlldap.Identity.Snapshot
import NfsKlldap.Idhelper.Cache
import NfsKlldap.Idhelper.Logins
import NfsKlldap.Idhelper.NssSnapshot
import NfsKlldap.Idhelper.NssSnapshotSpec
import NfsKlldap.Idhelper.Membership
import NfsKlldap.Idhelper.RootShadow
import NfsKlldap.Idhelper.KeyUniqueness
import NfsKlldap.Idhelper.Stores
import NfsKlldap.Idhelper.GroupStore
import NfsKlldap.Idhelper.Lookup
import NfsKlldap.Idhelper.Resolve
import NfsKlldap.Idhelper.ResolveSpec
import NfsKlldap.Idhelper.RealmGuard
import NfsKlldap.Idhelper.Rebulk
import NfsKlldap.Idhelper.SeedNames
import NfsKlldap.Idhelper.LogObserver
import NfsKlldap.Idhelper.Reachable
import NfsKlldap.Idhelper.RoundTrip
import NfsKlldap.Idhelper.Revocation
import NfsKlldap.Idhelper.SnapshotCongr
import NfsKlldap.Idhelper.CacheFile
import NfsKlldap.Idhelper.SingleFlight
import NfsKlldap.Idhelper.Refresh
import NfsKlldap.Idhelper.SteadyState
import NfsKlldap.Idhelper.GroupCalls
import NfsKlldap.Idhelper.Backed
import NfsKlldap.Idhelper.NssGate
import NfsKlldap.Idhelper.GroupRepair
import NfsKlldap.Supervisor.RecyclePlan
import NfsKlldap.Supervisor.SharesFingerprint
import NfsKlldap.Supervisor.Respawn
import NfsKlldap.Supervisor.Machine
import NfsKlldap.Supervisor.Ganesha
import NfsKlldap.Supervisor.Loop
import NfsKlldap.Supervisor.Effects
import NfsKlldap.Supervisor.Tracking
import NfsKlldap.Supervisor.Supervision
import NfsKlldap.Supervisor.ExportReload
import NfsKlldap.Lib.Bytes
import NfsKlldap.Supervisor.LogScan
import NfsKlldap.Web.RecycleLatch
import NfsKlldap.Web.AclWatch
import NfsKlldap.Lib.Toml
import NfsKlldap.Config.Model
import NfsKlldap.Identity.Realm
import NfsKlldap.Config.Validate
import NfsKlldap.Config.Revalidate
import NfsKlldap.Settings.Form
import NfsKlldap.Settings.Shares
import NfsKlldap.Settings.Spec
import NfsKlldap.Settings.Writers
import NfsKlldap.Web.Sessions
import NfsKlldap.Web.SessionStore
import NfsKlldap.Web.FirstPassword
import NfsKlldap.Web.Setup
import NfsKlldap.Web.Router
import NfsKlldap.Web.PasswordLogin
import NfsKlldap.Generate.Export
import NfsKlldap.Settings.Cards
import NfsKlldap.Settings.ShareTable
import NfsKlldap.Settings.RawOnly
import NfsKlldap.Settings.UntouchedSave
import NfsKlldap.Settings.Edits
import NfsKlldap.Settings.Persist
import NfsKlldap.Lib.UnixPath
import NfsKlldap.Lib.Slices
import NfsKlldap.Lib.Utf8
import NfsKlldap.Lib.LdapFilter
import NfsKlldap.Lib.Framing
import NfsKlldap.Lib.LexicalPath
import NfsKlldap.Config.SharePaths
import NfsKlldap.Generate.Fragments
import NfsKlldap.Generate.ExportIds
import NfsKlldap.Lib.ConfText
import NfsKlldap.Generate.FragmentText
import NfsKlldap.Lib.OwnedFiles
import NfsKlldap.Lib.Runs
import NfsKlldap.Generate.ExportDir
import NfsKlldap.Ldap.Posix
import NfsKlldap.Lib.Lending
import NfsKlldap.Ldap.ConnPool
import NfsKlldap.Ldap.Filter
import NfsKlldap.Ldap.Resolver
import NfsKlldap.Ldap.NameFilters
import NfsKlldap.Ldap.Filing
import NfsKlldap.Ldap.CacheCoherence
import NfsKlldap.Ldap.PrincipalGroups
import NfsKlldap.Ldap.Directory
import NfsKlldap.Ldap.BulkLoad
import NfsKlldap.Generate.ServiceConf
import NfsKlldap.Lib.Xml
import NfsKlldap.Generate.Avahi
import NfsKlldap.Lib.Stages
import NfsKlldap.Generate.All
import NfsKlldap.Lib.MaxBy
import NfsKlldap.Lib.Stacking
import NfsKlldap.Fs.Containment
import NfsKlldap.Fs.ShareChoice
import NfsKlldap.Lib.DirWalk
import NfsKlldap.Fs.Apply
import NfsKlldap.Fs.Scope
import NfsKlldap.Web.AclGate
import NfsKlldap.Web.MountTable
import NfsKlldap.Web.AclListing
import NfsKlldap.Web.ApplyForm
import NfsKlldap.Web.ApplyTask
import NfsKlldap.Web.SpecialBits
import NfsKlldap.Web.AclMounts
import NfsKlldap.Web.ApplySlot
import NfsKlldap.Lib.LastWrite
import NfsKlldap.Web.AclCapability
import NfsKlldap.Idhelper.HealBudget
import NfsKlldap.Idhelper.Socket
import NfsKlldap.Ldap.Staleness
import NfsKlldap.Web.AdminLogin
import NfsKlldap.Lib.Ini
import NfsKlldap.Generate.ServiceText
