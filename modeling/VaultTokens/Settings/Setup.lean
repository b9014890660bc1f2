import VaultTokens.Settings.KubernetesSettings
import VaultTokens.Settings.TokenSettings
import VaultTokens.Settings.VaultSettings

/-!
# Setups

All settings of a process: those of the secret client, and those of the strategies that it offers.
-/

namespace VaultTokens

/-- All settings of a process. -/
structure Setup where
  /-- The secret client. -/
  vault : VaultSettings
  /-- The Kubernetes strategy, if it is offered. -/
  kubernetes : Option KubernetesSettings
  /-- The token strategy, if it is offered. -/
  token : Option TokenSettings

/-- A setup on one line, without the tokens in it. -/
def Setup.describe (s : Setup) : String :=
  Text.record "HashicorpVaultSetup"
    [("vault", s.vault.describe),
      ("kubernetes", Text.optional (s.kubernetes.map KubernetesSettings.describe)),
      ("token", Text.optional (s.token.map TokenSettings.describe))]

end VaultTokens
