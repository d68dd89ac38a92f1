import JcosKernel.Thread.WaitHistory
import JcosKernel.Capability.Handles
import JcosKernel.Ipc.Runs
import JcosKernel.Ipc.Deadlines
import JcosKernel.Pmm.Runs
import JcosKernel.Vmm.Frames
import JcosKernel.Program.Borrowed
import JcosKernel.BootArchive.Agreement
import JcosKernel.Framebuffer.Grant
import JcosKernel.SerialWorker.Runs
import JcosKernel.Supervisor.Runs
import JcosKernel.Pci.IrqRuns
import JcosKernel.Polaris.StoreRuns
import JcosKernel.Polaris.Recipe
import JcosKernel.Usb.Poll
import JcosKernel.Audio.Ring
