import VaultTokens.Proofs.RenewalTimeline
import VaultTokens.Proofs.SharedLogin
import VaultTokens.Services.Session
import VaultTokens.Settings.Properties
import VaultTokens.Proofs.CallCourse
import VaultTokens.Proofs.ServedTokens
import VaultTokens.Proofs.ServicesChange
import VaultTokens.Proofs.WrittenDocuments
import VaultTokens.Proofs.StartupFailure
import VaultTokens.Proofs.SecretErrands
import VaultTokens.Proofs.ScheduledCalls
import VaultTokens.Proofs.FolderAddresses
import VaultTokens.Proofs.NeedlessCommands
import VaultTokens.Proofs.CallOrigins
import VaultTokens.Proofs.HealthChecks
import VaultTokens.Proofs.FirstLogins
import VaultTokens.Proofs.StartupHealth
import VaultTokens.Proofs.SchedulerMoves
import VaultTokens.Proofs.StartupSuccess
import VaultTokens.Proofs.GivenUpCalls
import VaultTokens.Proofs.OmittedCalls
import VaultTokens.Proofs.AttendedCalls
import VaultTokens.Proofs.ErrandProgress
import VaultTokens.Proofs.StartedServices
import VaultTokens.Proofs.InterruptedRenewals
import VaultTokens.Proofs.LeaseThresholds
import VaultTokens.Proofs.LeaseExpiry
import VaultTokens.Proofs.PrintedHosts
import VaultTokens.Proofs.PrintedUrls
import VaultTokens.Proofs.LoginEndpoints
import VaultTokens.Proofs.SecretAddresses
import VaultTokens.Proofs.FreshLogins
import VaultTokens.Proofs.RenewalBursts
import VaultTokens.Proofs.LeaseCoverage
import VaultTokens.Proofs.StoredTexts
import VaultTokens.Proofs.JoinedLogins
import VaultTokens.Proofs.PresentedTokens
import VaultTokens.Proofs.RetryDelays
import VaultTokens.Proofs.PropertyReads
import VaultTokens.Proofs.HiddenSecrets
import VaultTokens.Proofs.ValidSettings
import VaultTokens.Proofs.ScannedLiterals
import VaultTokens.Proofs.DenotedDocuments
import VaultTokens.Proofs.DocumentParts
import VaultTokens.Proofs.VersionMetadata
import VaultTokens.Proofs.StoreAnswers
import VaultTokens.Proofs.RenewedTokens
import VaultTokens.Proofs.SeparateRenewals
