import CpenLabs.Clocked
import CpenLabs.FsmMaster
import CpenLabs.AddressWalk
import CpenLabs.KeyboardCtrl
import CpenLabs.WordHalves
import CpenLabs.ResetRequest
import CpenLabs.FsmSlave
import CpenLabs.Handshake
import CpenLabs.ReadRequest
import CpenLabs.FlashAnswers
import CpenLabs.KeySchedule
import CpenLabs.Rc4Fsm
import CpenLabs.LostByte
import CpenLabs.Rc4Task1
import CpenLabs.InitialisationLoop
import CpenLabs.SwapRound
import CpenLabs.Kcpsm3
import CpenLabs.PracPico
import CpenLabs.ServiceRoutine
import CpenLabs.InterruptedRun
import CpenLabs.MainProgram
import CpenLabs.InterruptTransparency
import CpenLabs.AveragingFilter
import CpenLabs.MemoryImage
import CpenLabs.RequestService
import CpenLabs.PicoblazeTemplate
import CpenLabs.SampleClock
import CpenLabs.SamplesFiltered
import CpenLabs.SamplePulses
import CpenLabs.AudioFifo
import CpenLabs.SongStream
import CpenLabs.FskUpdate
import CpenLabs.KbdCtrl
import CpenLabs.StaleKeyCode
import CpenLabs.ClockCrossing
import CpenLabs.Rc4Termination
import CpenLabs.ReadPipeline
import CpenLabs.DividerPeriods
import CpenLabs.RingBuffer
import CpenLabs.LcdKeyRing
import CpenLabs.AsyncEdges
import CpenLabs.StackMemory
import CpenLabs.Transducers
import CpenLabs.PrefixCode
import CpenLabs.ScanCodes
import CpenLabs.ScanCodeReader
import CpenLabs.KeyboardKeys
import CpenLabs.SdramRequests
import CpenLabs.SdramReplies
import CpenLabs.Pacoblaze
import CpenLabs.PacoblazeRefinement
import CpenLabs.PracPicoCircuit
import CpenLabs.CircuitLeds
import CpenLabs.BankedMemory
import CpenLabs.SdramProtocol
import CpenLabs.SdramTiming
import CpenLabs.SdramProgress
import CpenLabs.SignalGenerator
import CpenLabs.ScreenPointer
import CpenLabs.ControlPanel
