import SamdReference.I2cTester.Replies
import SamdReference.Reentrant.Monitor
import SamdReference.I2cTester.Driver
import SamdReference.I2cTester.Agreement
import SamdReference.I2cTester.ReadLength
import SamdReference.I2cTester.Reports
import SamdReference.I2cTester.Requests
import SamdReference.I2cTester.Telemetry
import SamdReference.I2cTester.Conservation
import SamdReference.Reentrant.Rename
import SamdReference.I2cTester.Rejection
import SamdReference.I2cTester.Lending
import SamdReference.I2cTester.ReadData
import SamdReference.I2cTester.InvalidConfig
import SamdReference.I2cTester.Unsolicited
import SamdReference.Scanning.Pieces
import SamdReference.JlinkFlash.FindDeployments
import SamdReference.JlinkFlash.CMakeCalls
import SamdReference.JlinkFlash.Deployments
import SamdReference.I2cTester.RemoteAccess
import SamdReference.I2cTester.RegisterFile
import SamdReference.I2cTester.Recovery
import SamdReference.FrameworkHealth
import SamdReference.Gpio
import SamdReference.Top
import SamdReference.JlinkFlash.Main
import SamdReference.CmdTlmTest.FrameBuilder
import SamdReference.CmdTlmTest.Fixture
