import PodmanApi.Backupctl.Eligible
import PodmanApi.Backupctl.History
import PodmanApi.ImgRegistry.TagsCache
import PodmanApi.Instance.BackupRestart
import PodmanApi.Instance.EffectiveParameters
import PodmanApi.Instance.HostPorts
import PodmanApi.Instance.InventoryCache
import PodmanApi.Instance.MigrateFrame
import PodmanApi.Instance.Names
import PodmanApi.Instance.Prune
import PodmanApi.Instance.RecoveryRow
import PodmanApi.Instance.RenameRollback
import PodmanApi.Instance.RenameSpec
import PodmanApi.Instance.RestoreSpec
import PodmanApi.Instance.RestoreVolumes
import PodmanApi.Instance.SharedNames
import PodmanApi.Instance.TarFilterSpec
import PodmanApi.Instance.TemplateInUse
import PodmanApi.Instance.Transfer
import PodmanApi.Inventory.Boot
import PodmanApi.Jobs.EnqueueBackup
import PodmanApi.Jobs.HostPruneDedup
import PodmanApi.Jobs.RegistrySchedule
import PodmanApi.Jobs.Sweep
import PodmanApi.Jobs.Upkeep
import PodmanApi.Podman.Completion
import PodmanApi.Podman.Tunnel
import PodmanApi.Podman.VersionGate
import PodmanApi.RegistryPrune.Collection
import PodmanApi.RegistryPrune.Recreate
import PodmanApi.Render.BlockScalar
import PodmanApi.Store.RenameHost
import PodmanApi.Store.Seeds
import PodmanApi.Store.SpecColumns
import PodmanApi.TokenManager
