import EerieLeap.Canbus.Duplicates
import EerieLeap.Canbus.Liveness
import EerieLeap.Canbus.LuaStack
import EerieLeap.Canbus.OldReadings
import EerieLeap.Canbus.SentFrames
import EerieLeap.Controllers.AnimationHandler
import EerieLeap.Controllers.StatusBar
import EerieLeap.Http.Resource
import EerieLeap.LogsParser.DamagedRecords
import EerieLeap.LogsParser.GrowingLogs
import EerieLeap.LogsParser.MetadataLossless
import EerieLeap.Views.DotPathDots
import EerieLeap.Views.ParticlesAnimation
import EerieLeap.Views.TaperedWaveAnimation
import EerieLeap.Views.WaveLinesAnimation
