import AuthGateway.Lib.Prog
import AuthGateway.Lib.Hoare
import AuthGateway.Lib.Runs
import AuthGateway.Lib.Threads
import AuthGateway.Lib.Table
import AuthGateway.Lib.Throttle
import AuthGateway.Lib.SlidingWindow
import AuthGateway.Lib.Replay
import AuthGateway.Lib.GoString
import AuthGateway.Common.Constants
import AuthGateway.Common.Json
import AuthGateway.Common.Totp
import AuthGateway.Common.Verification
import AuthGateway.Setting.Config
import AuthGateway.Model.Option
import AuthGateway.Model.Rows
import AuthGateway.Model.Store
import AuthGateway.Env
import AuthGateway.Model.User
import AuthGateway.Model.Account
import AuthGateway.Model.Identity
import AuthGateway.Model.Passkey
import AuthGateway.Model.TwoFA
import AuthGateway.Controller.User
import AuthGateway.Controller.UserList
import AuthGateway.Controller.Misc
import AuthGateway.Controller.TwoFA
import AuthGateway.Controller.Passkey
import AuthGateway.Controller.SecureVerification
import AuthGateway.Controller.OAuth
import AuthGateway.Controller.Option
import AuthGateway.Controller.Setup
import AuthGateway.Middleware.Auth
import AuthGateway.BrowserSession
import AuthGateway.TwoFactorGate
import AuthGateway.StepUp
import AuthGateway.AdminRank
import AuthGateway.LoginGate
import AuthGateway.TokenLeak
import AuthGateway.Throttling
import AuthGateway.BackupCodeOnce
import AuthGateway.PasskeyRemoval
import AuthGateway.CloneDetection
import AuthGateway.ModuleOptions
import AuthGateway.ProviderCredentials
import AuthGateway.SettingsRestart
import AuthGateway.Accounts
import AuthGateway.Refusals
import AuthGateway.Privilege
import AuthGateway.AfterCreation
import AuthGateway.Lib.Copies
import AuthGateway.SingleUse
import AuthGateway.FreshAuthorization
import AuthGateway.IdentityRace
import AuthGateway.LostUpdate
import AuthGateway.Common.RateLimit
import AuthGateway.RateLimit
import AuthGateway.Middleware.RateLimit
import AuthGateway.Lib.Serial
import AuthGateway.TwoFASerial
import AuthGateway.RateLimitBackends
import AuthGateway.RateLimitRace
import AuthGateway.Lib.Holdings
import AuthGateway.Model.Utils
import AuthGateway.BatchConservation
import AuthGateway.Controller.PasswordReset
import AuthGateway.ResetTokens
import AuthGateway.AffiliateLedger
import AuthGateway.Common.Redis
import AuthGateway.Model.UserCache
import AuthGateway.CacheIntegrity
import AuthGateway.Model.CachedUser
import AuthGateway.Model.Live
import AuthGateway.CacheCoherence
import AuthGateway.UsableAccounts
import AuthGateway.Identifiers
import AuthGateway.RootAccount
import AuthGateway.SetupRace
import AuthGateway.TelegramSignature
import AuthGateway.SessionValues
import AuthGateway.SessionPanics
import AuthGateway.AdminReplies
import AuthGateway.PasskeyAddress
import AuthGateway.Lib.JsonText
import AuthGateway.Model.UserSetting
import AuthGateway.SettingForms
import AuthGateway.Lib.FixedWindow
import AuthGateway.Middleware.EmailVerification
import AuthGateway.EmailLimit
import AuthGateway.EmailOutage
import AuthGateway.Lib.Expiry
import AuthGateway.VerificationStore
import AuthGateway.Lib.OneTimeCodes
import AuthGateway.Lib.TableCount
import AuthGateway.BackupCodeLedger
import AuthGateway.Lib.SkipSearch
import AuthGateway.Lib.Utf8
import AuthGateway.Service.Str
import AuthGateway.TextSearch
import AuthGateway.Lib.Hex
import AuthGateway.Lib.Memo
import AuthGateway.Service.AcSearch
import AuthGateway.AhoCorasickCache
import AuthGateway.Lib.Decimal
import AuthGateway.Lib.IpAddress
import AuthGateway.Common.SsrfProtection
import AuthGateway.PortRanges
import AuthGateway.DomainSpelling
import AuthGateway.PrivateAddresses
import AuthGateway.UrlLiterals
import AuthGateway.Lib.Lowering
import AuthGateway.Service.PasskeyOrigins
import AuthGateway.SecureOrigins
import AuthGateway.Lib.Base64
import AuthGateway.Lib.JsonString
import AuthGateway.Model.PasskeyCodec
import AuthGateway.PasskeyStorage
import AuthGateway.Lib.Bcrypt
import AuthGateway.PasswordChange
import AuthGateway.Lib.GoValue
import AuthGateway.Lib.JsonTree
import AuthGateway.Lib.GoJson
import AuthGateway.Lib.GoRoundTrip
import AuthGateway.Setting.ConfigMap
import AuthGateway.ConfigImport
import AuthGateway.BucketLimit
import AuthGateway.CodeFormats
import AuthGateway.NumericOptions
import AuthGateway.Paging
import AuthGateway.SecretOptions
import AuthGateway.Common.RedisObject
import AuthGateway.RedisRoundTrip
import AuthGateway.Lib.Url
import AuthGateway.ProvisioningUri
import AuthGateway.FreshNames
import AuthGateway.Controller.ConsoleMigrate
import AuthGateway.ConsoleMigration
import AuthGateway.Lib.GoErrors
import AuthGateway.Setting.JsonSettings
import AuthGateway.RejectedSettings
import AuthGateway.Lib.Base64Digits
import AuthGateway.Web.Passkey
import AuthGateway.Base64Url
import AuthGateway.Lib.Regex
import AuthGateway.Lib.UrlParse
import AuthGateway.Common.Str
import AuthGateway.MaskedUrls
import AuthGateway.Authority
import AuthGateway.IssuedCodes
import AuthGateway.CredentialOrigins
import AuthGateway.Lib.Handed
import AuthGateway.SecondFactor
import AuthGateway.SessionOrigins
import AuthGateway.Lib.Replicas
import AuthGateway.Replicas
import AuthGateway.Lib.Chain
import AuthGateway.Router.ApiRouter
import AuthGateway.Router.Passage
import AuthGateway.Gatekeeping
import AuthGateway.Lifetimes
import AuthGateway.Admission
