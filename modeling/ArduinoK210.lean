import ArduinoK210.Flash.Erase
import ArduinoK210.Flash.Mode
import ArduinoK210.Gpio.Routing
import ArduinoK210.Sd.Initialize
import ArduinoK210.Sd.Session
import ArduinoK210.Timer.Delivery
import ArduinoK210.Timer.Rearm
import ArduinoK210.Gpio.Fpioa
import ArduinoK210.Dma.Channels
import ArduinoK210.Lib.Mutex
import ArduinoK210.Dma.Exclusion
import ArduinoK210.Spi.Controllers
import ArduinoK210.Spi.Ownership
import ArduinoK210.Gpio.Interrupt
import ArduinoK210.Wire.Isolation
import ArduinoK210.Spi.Transaction
import ArduinoK210.I2s.DoubleBuffer
import ArduinoK210.I2s.Stream
import ArduinoK210.I2s.Calls
import ArduinoK210.I2s.Integrity
import ArduinoK210.K210Aes.Session
import ArduinoK210.K210Aes.Atomic
import ArduinoK210.K210Aes.Streaming
import ArduinoK210.Imaging.Color
import ArduinoK210.Imaging.Convert
import ArduinoK210.Imaging.RoundTrip
import ArduinoK210.Imaging.Cut
import ArduinoK210.Imaging.Fused
import ArduinoK210.Imaging.Gray
import ArduinoK210.Lib.Heap
import ArduinoK210.Display.Drawing
import ArduinoK210.Display.Bitmap
import ArduinoK210.Display.Marks
import ArduinoK210.Display.Tiles
import ArduinoK210.Imaging.Buffers
import ArduinoK210.Imaging.Ownership
import ArduinoK210.Touch.Protocol
import ArduinoK210.Touch.Session
import ArduinoK210.Touch.Windows
import ArduinoK210.Kpu.Lifetime
import ArduinoK210.Lib.Interleave
import ArduinoK210.Publish.Versions
import ArduinoK210.Publish.Alone
import ArduinoK210.Publish.Objects
import ArduinoK210.Publish.CrashSafety
import ArduinoK210.Publish.Immutable
import ArduinoK210.Serial.Fifo
import ArduinoK210.Camera.Begin
import ArduinoK210.Camera.Capture
import ArduinoK210.Serial.Callback
import ArduinoK210.Sd.Capacity
import ArduinoK210.Net.PrintTo
import ArduinoK210.Jpeg.Coverage
import ArduinoK210.Lib.Lanes
import ArduinoK210.Jpeg.Colour
import ArduinoK210.Lib.Fair
import ArduinoK210.Spi.Completion
import ArduinoK210.Spi.Words
import ArduinoK210.Text.Construct
import ArduinoK210.Text.Refinement
import ArduinoK210.Kpu.OutputShape
import ArduinoK210.Kpu.Nms
import ArduinoK210.Kpu.Region
import ArduinoK210.Imaging.Bmp
import ArduinoK210.Imaging.Extent
import ArduinoK210.Lib.Bilinear
import ArduinoK210.Lib.Gather
import ArduinoK210.Imaging.Resize
import ArduinoK210.Imaging.Overshoot
import ArduinoK210.Imaging.Requests
import ArduinoK210.Imaging.Reach
import ArduinoK210.Imaging.Planes
import ArduinoK210.Imaging.Bounded
import ArduinoK210.Imaging.Constant
import ArduinoK210.Imaging.ConstantWords
import ArduinoK210.Imaging.ConstantPlanes
import ArduinoK210.Kpu.Face
import ArduinoK210.Streams.ParseInt
import ArduinoK210.Streams.FindMulti
import ArduinoK210.Streams.PrintString
import ArduinoK210.Common.Random
import ArduinoK210.Serial.Divisor
import ArduinoK210.Common.Compatible
import ArduinoK210.Publish.Precedence
import ArduinoK210.Lib.Link
import ArduinoK210.SoftSpi.Calls
import ArduinoK210.Publish.Rerun
import ArduinoK210.Publish.Retention
import ArduinoK210.Jpeg.Save
import ArduinoK210.Vfs.Life
