import AtlasWow.Net.ReadDataHandler
import AtlasWow.Net.SendQueue
import AtlasWow.Auth.AuthBounds
import AtlasWow.Utilities.TaskSchedulerRuns
import AtlasWow.Groups.GroupRuns
import AtlasWow.Guilds.GuildBankRuns
import AtlasWow.AuctionHouse.AuctionItems
import AtlasWow.AuctionHouse.AuctionMoney
import AtlasWow.Battlegrounds.ArenaRestarts
import AtlasWow.Entities.ItemPlaces
import AtlasWow.Loots.LootRestores
import AtlasWow.Instances.ResetRuns
import AtlasWow.Battlegrounds.QueueFill
import AtlasWow.Battlegrounds.QueueWaits
import AtlasWow.Combat.ThreatVictim
import AtlasWow.Chat.ChannelRuns
import AtlasWow.Spells.CooldownRuns
import AtlasWow.Calendar.CalendarRemovals
import AtlasWow.Events.GameEventTimer
import AtlasWow.Events.EventRuns
import AtlasWow.Combat.ThreatRedirect
import AtlasWow.Combat.ThreatMatch
import AtlasWow.Conditions.ReferenceCycles
import AtlasWow.Movement.MotionRemove
import AtlasWow.Utilities.EventMapRuns
import AtlasWow.Utilities.EventProcessorRuns
import AtlasWow.Auth.Srp6Wire
import AtlasWow.Groups.RollBlocked
import AtlasWow.Scripts.MountsVendor
import AtlasWow.World.BattleroyaleZone
import AtlasWow.World.BattleroyaleStart
import AtlasWow.World.BattleroyaleGroupRuns
import AtlasWow.Utilities.TimeStrings
import AtlasWow.Utilities.Utf8Truncate
import AtlasWow.Utilities.DeclinedNames
import AtlasWow.Net.PackedGuid
import AtlasWow.Entities.TransmogPresets
import AtlasWow.Groups.Looter
import AtlasWow.Groups.RemoveMember
import AtlasWow.Lfg.DungeonCache
import AtlasWow.Lfg.BootRuns
import AtlasWow.Lfg.BestRuns
import AtlasWow.Guilds.GuildOfficers
import AtlasWow.Pools.PoolSpawn
import AtlasWow.Reputation.ReputationRelog
import AtlasWow.Loots.LootView
import AtlasWow.Loots.LootQuestOutcomes
import AtlasWow.Guilds.GuildLogRuns
import AtlasWow.Entities.StoreAnswer
import AtlasWow.Net.IPLocation
import AtlasWow.Crypto.WardenKeyGeneration
import AtlasWow.Utilities.Timer
import AtlasWow.Utilities.Tokenizer
import AtlasWow.Chat.HyperlinkGrammar
import AtlasWow.Threading.MPSCQueue
import AtlasWow.Instances.InstanceIds
