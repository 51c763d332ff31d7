import Appliance.Document
import Appliance.Schema.Record

/-! The fields of documents and of the records in them, under the names they have on disk. -/
namespace Appliance

def Privilege.name : Privilege → String
  | root => "root"
  | superuser => "superuser"
  | user => "user"

def Console.name : Console → String
  | standard => "standard"
  | screen => "screen"
  | serial => "serial"
  | disabled => "disabled"

def RootFs.name : RootFs → String
  | ext2 => "ext2"
  | xfs => "xfs"
  | fat => "fat"

namespace Codec

def privilege : Codec (Option Privilege) :=
  choice ([.root, .superuser, .user].map fun p => (p.name, p)) Privilege.name

def console : Codec (Option Console) :=
  choice ([.standard, .screen, .serial, .disabled].map fun c => (c.name, c)) Console.name

def rootFs : Codec (Option RootFs) :=
  choice ([.ext2, .xfs, .fat].map fun f => (f.name, f)) RootFs.name

end Codec

def Program.schema : Record Program where
  expected := "struct Program"
  fields := [
    .of "binary" .string (·.binary) ({ · with binary := · }),
    .of "args" .string (·.args) ({ · with args := · }),
    .of "env" (.list .string) (·.env) ({ · with env := · }),
    .of "cwd" .string (·.cwd) ({ · with cwd := · }),
    .of "stdout" .string (·.stdout) ({ · with stdout := · }),
    .of "stderr" .string (·.stderr) ({ · with stderr := · }),
    .of "bootstrap" (.list .string) (·.bootstrap) ({ · with bootstrap := · }),
    .of "logfiles" (.list .string) (·.logfiles) ({ · with logfiles := · }),
    .of "privilege" .privilege (·.privilege) ({ · with privilege := · }),
    .of "strace" .bool (·.strace) ({ · with strace := · })]

def Interface.schema : Record Interface where
  expected := "struct NetworkInterface"
  fields := [
    .of "ip" .string (·.ip) ({ · with ip := · }),
    .of "mask" .string (·.mask) ({ · with mask := · }),
    .of "gateway" .string (·.gateway) ({ · with gateway := · }),
    .of "udp" (.list .entry) (·.udp) ({ · with udp := · }),
    .of "tcp" (.list .entry) (·.tcp) ({ · with tcp := · }),
    .of "http" (.list .entry) (·.http) ({ · with http := · }),
    .of "https" (.list .entry) (·.https) ({ · with https := · }),
    .of "mtu" .u32 (·.mtu) ({ · with mtu := · }),
    .of "disable-tso" .bool (·.disableTso) ({ · with disableTso := · }),
    .of "tcpdump" .bool (·.tcpdump) ({ · with tcpdump := · })]

def Settings.schema : Record Settings where
  expected := "struct SystemSettings"
  fields := [
    .of "dns" (.list .entry) (·.dns) ({ · with dns := · }),
    .of "ntp" (.list .entry) (·.ntp) ({ · with ntp := · }),
    .of "hostname" .string (·.hostname) ({ · with hostname := · }),
    .of "max-fds" .u32 (·.maxFds) ({ · with maxFds := · }),
    .of "output-mode" .console (·.console) ({ · with console := · }),
    .of "kernel-args" .string (·.kernelArgs) ({ · with kernelArgs := · }),
    .of "filesystem" .rootFs (·.rootFs) ({ · with rootFs := · }),
    .of "user" .string (·.user) ({ · with user := · })]

def Package.schema : Record Package where
  expected := "struct PackageInfo"
  fields := [
    .of "name" .string (·.name) ({ · with name := · }),
    .of "author" .string (·.author) ({ · with author := · }),
    .of "summary" .string (·.summary) ({ · with summary := · }),
    .of "description" .string (·.description) ({ · with description := · }),
    .of "url" .string (·.url) ({ · with url := · }),
    .of "date" .date (·.date) ({ · with date := · }),
    .of "version" .string (·.version) ({ · with version := · })]

def Machine.schema : Record Machine where
  expected := "struct VmSettings"
  fields := [
    .of "cpus" .u32 (·.cpus) ({ · with cpus := · }),
    .of "ram" .size (·.ram) ({ · with ram := · }),
    .of "inodes" .u64 (·.inodes) ({ · with inodes := · }),
    .of "kernel" .string (·.kernel) ({ · with kernel := · }),
    .of "disk-size" .size (·.diskSize) ({ · with diskSize := · })]

def Mount.schema : Record Mount where
  expected := "struct NfsSettings"
  fields := [
    .of "mount" .string (·.point) ({ · with point := · }),
    .of "server" .string (·.server) ({ · with server := · }),
    .of "options" .string (·.options) ({ · with options := · })]

def Route.schema : Record Route where
  expected := "struct Route"
  fields := [
    .of "interface" .string (·.interface) ({ · with interface := · }),
    .of "destination" .string (·.destination) ({ · with destination := · }),
    .of "gateway" .string (·.gateway) ({ · with gateway := · })]

def LogSink.schema : Record LogSink where
  expected := "struct Logging"
  fields := [
    .of "config" (.list .string) (·.config) ({ · with config := · }),
    .of "type" .string (·.kind) ({ · with kind := · })]

/-- The time of a document is not among its fields. -/
def Document.schema : Record Document where
  expected := "struct ConfigDocument"
  fields := [
    .of "program" (.records Program.schema.codec) (·.programs) ({ · with programs := · }),
    .of "network" (.records Interface.schema.codec) (·.interfaces) ({ · with interfaces := · }),
    .of "system" Settings.schema.codec (·.settings) ({ · with settings := · }),
    .of "info" Package.schema.codec (·.package) ({ · with package := · }),
    .of "vm" Machine.schema.codec (·.machine) ({ · with machine := · }),
    .of "nfs" (.records Mount.schema.codec) (·.mounts) ({ · with mounts := · }),
    .of "route" (.records Route.schema.codec) (·.routes) ({ · with routes := · }),
    .of "logging" (.records LogSink.schema.codec) (·.logs) ({ · with logs := · }),
    .of "sysctl" .parameters (·.parameters) ({ · with parameters := · })]

end Appliance
