import Appliance.Document

/-! Settling a document, which carries out every mark and leaves none, and laying one document over
another. A single value of the upper document wins where it is set; record lists, entry lists and
maps are united; interfaces are paired by position. The result is settled, and keeps the time of the
document whose content it has. -/
namespace Appliance

def Settings.settle (settings : Settings) : Settings :=
  { settings with
    dns := Entries.settle [settings.dns]
    ntp := Entries.settle [settings.ntp]
    kernelArgs := Words.settle [settings.kernelArgs] }

namespace Document

def settle (doc : Document) : Document :=
  { doc with interfaces := doc.interfaces.map (·.settle), settings := doc.settings.settle }

def unmarked (doc : Document) : Bool :=
  doc.interfaces.all (·.unmarked) && Entries.unmarked doc.settings.dns &&
    Entries.unmarked doc.settings.ntp && Entries.unmarked (Words.split doc.settings.kernelArgs)

end Document

namespace Records

/-- The lower records, then the upper ones that the lower list does not hold. Repeats inside one
list stay. -/
def layer {α : Type} [DecidableEq α] (base upper : List α) : List α :=
  base ++ upper.filter (!base.contains ·)

end Records

/-- The upper value, or the lower one where the upper is not set. -/
def override {α : Type} [DecidableEq α] [Inhabited α] (base upper : α) : α :=
  if upper = default then base else upper

def Interface.overlay (base upper : Interface) : Interface where
  ip := override base.ip upper.ip
  mask := override base.mask upper.mask
  gateway := override base.gateway upper.gateway
  udp := Entries.layer [base.udp, upper.udp]
  tcp := Entries.layer [base.tcp, upper.tcp]
  http := Entries.layer [base.http, upper.http]
  https := Entries.layer [base.https, upper.https]
  mtu := override base.mtu upper.mtu
  disableTso := override base.disableTso upper.disableTso
  tcpdump := override base.tcpdump upper.tcpdump

/-- Interfaces in the same position become one; the rest of the longer list follows as it is. -/
def Interface.overlayAll : List Interface → List Interface → List Interface
  | [], upper => upper
  | base, [] => base
  | base :: bases, upper :: uppers => base.overlay upper :: overlayAll bases uppers

def Settings.overlay (base upper : Settings) : Settings where
  dns := Entries.layerDistinct [base.dns, upper.dns]
  ntp := Entries.layerDistinct [base.ntp, upper.ntp]
  hostname := override base.hostname upper.hostname
  maxFds := override base.maxFds upper.maxFds
  console := override base.console upper.console
  kernelArgs := Words.settle [base.kernelArgs, upper.kernelArgs]
  rootFs := override base.rootFs upper.rootFs
  user := override base.user upper.user

def Package.overlay (base upper : Package) : Package where
  name := override base.name upper.name
  author := override base.author upper.author
  summary := override base.summary upper.summary
  description := override base.description upper.description
  url := override base.url upper.url
  date := override base.date upper.date
  version := override base.version upper.version

def Machine.overlay (base upper : Machine) : Machine where
  cpus := override base.cpus upper.cpus
  ram := override base.ram upper.ram
  inodes := override base.inodes upper.inodes
  kernel := override base.kernel upper.kernel
  diskSize := override base.diskSize upper.diskSize

namespace Document

def unite (base upper : Document) : Document where
  programs := Records.layer base.programs upper.programs
  interfaces := Interface.overlayAll base.interfaces upper.interfaces
  settings := base.settings.overlay upper.settings
  package := base.package.overlay upper.package
  machine := base.machine.overlay upper.machine
  mounts := Records.layer base.mounts upper.mounts
  routes := Records.layer base.routes upper.routes
  logs := Records.layer base.logs upper.logs
  parameters := Parameters.layer [base.parameters, upper.parameters]

/-- Lays `upper` on `base`. Content that neither of them had is stamped `now`. -/
def overlay (base upper : Document) (now : Time) : Document :=
  let united := (unite base upper).settle
  { united with
    changed :=
      if united.sameContent upper then upper.changed
      else if united.sameContent base then base.changed
      else some now }

end Document

end Appliance
