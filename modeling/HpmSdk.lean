import HpmSdk.Sdp.CtrMode
import HpmSdk.Sdp.CcmConform
import HpmSdk.Sdp.CcmStatus
import HpmSdk.Sdp.HashStream
import HpmSdk.Enet.EthTxContract
import HpmSdk.Usb.HostContract
import HpmSdk.Usb.TransferRange
import HpmSdk.Sd.CardReuse
import HpmSdk.Sd.BlocksFaithful
import HpmSdk.Sdxc.TransferFaithful
import HpmSdk.Usb.XfersRuns
import HpmSdk.Can.FilterContract
import HpmSdk.Can.SendContract
import HpmSdk.Can.BitTimingExact
import HpmSdk.Spi.Addresses
import HpmSdk.Dma.ChannelsContract
import HpmSdk.Pmp.ConfigContract
import HpmSdk.Pllctl.IntModeContract
import HpmSdk.Clock.SourceContract
import HpmSdk.I2c.TransferContract
import HpmSdk.Mbx.FifoRuns
import HpmSdk.Usb.DcdEndpointsContract
import HpmSdk.Pdma.PlanesContract
import HpmSdk.Pdma.OutputContract
import HpmSdk.Sd.Busy
import HpmSdk.Sd.InitContract
import HpmSdk.Gpio.PinContract
import HpmSdk.Usb.HostPolling
import HpmSdk.Usb.DcdPortsRuns
import HpmSdk.Lcdc.LayerContract
import HpmSdk.Enet.EthRxDelivered
import HpmSdk.Dma.Memcpy
import HpmSdk.L1c.OpContract
import HpmSdk.Wdg.IntervalContract
import HpmSdk.Dram.ConfigTiming
import HpmSdk.Dram.ConfigStatus
import HpmSdk.I2c.Setup
import HpmSdk.I2c.SetupContract
import HpmSdk.Spi.TimingContract
import HpmSdk.Uart.Init
import HpmSdk.Uart.InitContract
import HpmSdk.Pllctl.FracModeContract
import HpmSdk.Pllctl.Setters
import HpmSdk.I2s.Config
import HpmSdk.I2s.ConfigContract
import HpmSdk.Sdxc.Tuning
import HpmSdk.Sd.Switch
import HpmSdk.Sd.Status
import HpmSdk.Sd.StatusContract
import HpmSdk.Uart.Getc
import HpmSdk.Touch.Report
import HpmSdk.Usb.PlacedRuns
import HpmSdk.Pdma.Scale
import HpmSdk.Jpeg.Start
import HpmSdk.Jpeg.StartContract
import HpmSdk.Adc.Preempt
import HpmSdk.Adc.Calibration12
import HpmSdk.Adc.Period
import HpmSdk.Ptpc.Init
import HpmSdk.Adc.Calibration16
import HpmSdk.Foundation.LittleEndian
import HpmSdk.Jpeg.Table
import HpmSdk.Foundation.Blocks
import HpmSdk.Foundation.RingQueue
import HpmSdk.Foundation.Wrap
import HpmSdk.Rtt.RingBuffer
import HpmSdk.Rtt.RingBufferFifo
import HpmSdk.Rtt.RingBufferRuns
import HpmSdk.Rtt.SmallMem
import HpmSdk.Rtt.SmallMemAlloc
import HpmSdk.Rtt.SmallMemContract
import HpmSdk.Rtt.Serial
import HpmSdk.Rtt.TimerPeriodic
import HpmSdk.Rtt.SchedulerRotation
import HpmSdk.Rtt.MutexRuns
