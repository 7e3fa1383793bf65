import RpiDrivers.Acpi.Properties
import RpiDrivers.AuxSpi.DoneIrq
import RpiDrivers.AuxSpi.MdlCopy
import RpiDrivers.AuxSpi.Transfer
import RpiDrivers.Brcme88c.Accounting
import RpiDrivers.Brcme88c.DmaTable
import RpiDrivers.Brcme88c.SignalingVoltage
import RpiDrivers.BusClock
import RpiDrivers.Genet.Interrupt
import RpiDrivers.Genet.RxFrames
import RpiDrivers.Gpio.BitfieldArray
import RpiDrivers.Gpio.PinUses
import RpiDrivers.Gpio.StormMitigation
import RpiDrivers.I2c.Completion
import RpiDrivers.I2c.Ownership
import RpiDrivers.I2c.Reading
import RpiDrivers.Mailbox.MacAddress
import RpiDrivers.Mailbox.Pairing
import RpiDrivers.MiniUart.CharsQueued
import RpiDrivers.MiniUart.FlowControl
import RpiDrivers.MiniUart.ReadInterval
import RpiDrivers.MiniUart.RtsToggle
import RpiDrivers.MiniUart.Settings
import RpiDrivers.MiniUart.WaitEvents
import RpiDrivers.Pl011.BaudRate
import RpiDrivers.Pl011.RxRing
import RpiDrivers.Pl011.TxRing
import RpiDrivers.PwmAudio.Notifications
import RpiDrivers.PwmAudio.PacketGeometry
import RpiDrivers.PwmAudio.PlayPosition
import RpiDrivers.PwmAudio.StopAudio
import RpiDrivers.PwmAudio.WriteSlots
import RpiDrivers.PwmDriver.Parallel
import RpiDrivers.PwmDriver.PrepareHardware
import RpiDrivers.Rpisdhc.Completion
import RpiDrivers.Rpisdhc.Polling
import RpiDrivers.Rpiuxflt.Adapter
import RpiDrivers.Rpiuxflt.TransferBytes
import RpiDrivers.SdClock
import RpiDrivers.SdInterrupts
import RpiDrivers.Sdhc.Cmd53Split
import RpiDrivers.Sdhc.Outstanding
import RpiDrivers.Sdhc.WorkAroundOffset
import RpiDrivers.Spi0.PollTransfer
import RpiDrivers.Vchiq.AwaitBuffers
import RpiDrivers.Vchiq.BulkResources
import RpiDrivers.Vchiq.Completion
import RpiDrivers.Vchiq.FileContext
import RpiDrivers.Vchiq.Layout
import RpiDrivers.Vchiq.Lifecycle
import RpiDrivers.Vchiq.Messages
import RpiDrivers.Vchiq.PageList
import RpiDrivers.Vchiq.PendingRefs
import RpiDrivers.Vchiq.Quiescence
import RpiDrivers.Vchiq.RxBounds
import RpiDrivers.Vchiq.TxStream
import RpiDrivers.Vcos.MsgQueue
