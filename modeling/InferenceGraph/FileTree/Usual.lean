import InferenceGraph.FileTree

/-!
# The usual file tree

What a session finds before it has saved anything: a system that is in use. Programs, settings and
devices stand where they usually do, and the views of the running system show what they show
everywhere, such as the state of every process; they take no new entries.
-/

set_option autoImplicit false

namespace InferenceGraph

namespace FileTree

namespace Usual

def devices : List String :=
   ["autofs", "btrfs-control", "console", "cpu_dma_latency", "full", "fuse", "hwrng", "kmsg",
    "kvm", "loop-control", "null", "ptmx", "random", "stderr", "stdin", "stdout", "tty", "ttyS0",
    "urandom", "userfaultfd", "vcs", "vcs1", "vcsa", "vcsa1", "vga_arbiter", "vsock", "zero"]

def terminals : List String := (List.range 64).map fun n => s!"tty{n}"

def settings : List String :=
   ["bash.bashrc", "debian_version", "environment", "fstab", "gai.conf", "group", "gshadow",
    "host.conf", "hostname", "hosts", "issue", "issue.net", "ld.so.cache", "ld.so.conf",
    "localtime", "login.defs", "lsb-release", "machine-id", "networks", "nsswitch.conf",
    "os-release", "pam.conf", "passwd", "profile", "protocols", "resolv.conf", "rpc", "services",
    "shadow", "shells", "subgid", "subuid", "timezone"]

def programs : List String :=
   ["[", "awk", "bash", "cat", "chmod", "chown", "cp", "cut", "date", "dd", "df", "diff",
    "dirname", "du", "echo", "env", "expr", "false", "find", "grep", "gzip", "head", "hostname",
    "id", "kill", "ln", "ls", "mkdir", "mkfifo", "mknod", "mktemp", "mv", "nice", "nohup", "od",
    "paste", "perl", "printf", "ps", "pwd", "readlink", "realpath", "rm", "rmdir", "sed", "seq",
    "sh", "sleep", "sort", "split", "stat", "stty", "sync", "tail", "tar", "tee", "test",
    "touch", "tr", "true", "tty", "uname", "uniq", "wc", "which", "whoami", "xargs", "yes"]

def systemViews : List String :=
   ["buddyinfo", "cgroups", "cmdline", "config.gz", "consoles", "cpuinfo", "crypto", "devices",
    "diskstats", "dma", "execdomains", "filesystems", "interrupts", "iomem", "ioports",
    "kallsyms", "key-users", "keys", "kmsg", "kpagecgroup", "kpagecount", "kpageflags",
    "loadavg", "locks", "meminfo", "misc", "mtrr", "pagetypeinfo", "partitions", "slabinfo",
    "softirqs", "stat", "swaps", "timer_list", "uptime", "version", "vmallocinfo", "vmstat",
    "zoneinfo"]

def processViews : List String :=
   ["arch_status", "autogroup", "auxv", "cgroup", "clear_refs", "cmdline", "comm",
    "coredump_filter", "cpuset", "environ", "exe", "gid_map", "io", "ksm_merging_pages",
    "ksm_stat", "limits", "loginuid", "maps", "mem", "mountinfo", "mounts", "mountstats",
    "numa_maps", "oom_adj", "oom_score", "oom_score_adj", "pagemap", "personality", "projid_map",
    "sched", "schedstat", "sessionid", "setgroups", "smaps", "smaps_rollup", "stack", "stat",
    "statm", "status", "syscall", "timens_offsets", "timers", "timerslack_ns", "uid_map",
    "wchan"]

def processNamespaces : List String :=
   ["cgroup", "ipc", "mnt", "net", "pid", "pid_for_children", "time", "time_for_children",
    "user", "uts"]

def processLabels : List String :=
   ["current", "exec", "fscreate", "keycreate", "prev", "sockcreate"]

def networkViews : List String :=
   ["anycast6", "arp", "connector", "dev", "dev_mcast", "fib_trie", "fib_triestat", "icmp",
    "icmp6", "if_inet6", "igmp", "igmp6", "ip6_flowlabel", "ip6_mr_cache", "ip6_mr_vif",
    "ip6_tables_matches", "ip6_tables_names", "ip6_tables_targets", "ip_mr_cache", "ip_mr_vif",
    "ip_tables_matches", "ip_tables_names", "ip_tables_targets", "ipv6_route", "mcfilter",
    "mcfilter6", "netlink", "netstat", "nf_conntrack", "packet", "pnp", "protocols", "psched",
    "ptype", "raw", "raw6", "route", "rt6_stats", "rt_acct", "rt_cache", "snmp", "snmp6",
    "sockstat", "sockstat6", "softnet_stat", "tcp", "tcp6", "udp", "udp6", "udplite", "udplite6",
    "unix", "xfrm_stat"]

def kernelSettings : List String :=
   ["acct", "auto_msgmni", "bootloader_type", "bootloader_version", "bpf_stats_enabled",
    "cad_pid", "cap_last_cap", "core_pattern", "core_pipe_limit", "core_uses_pid",
    "ctrl-alt-del", "dmesg_restrict", "domainname", "ftrace_enabled", "hostname",
    "kptr_restrict", "max_lock_depth", "msg_next_id", "msgmax", "msgmnb", "msgmni",
    "ngroups_max", "nmi_watchdog", "ns_last_pid", "numa_balancing", "oops_limit", "osrelease",
    "ostype", "overflowgid", "overflowuid", "panic", "panic_on_oops", "panic_on_warn",
    "panic_print", "perf_event_max_sample_rate", "perf_event_mlock_kb", "perf_event_paranoid",
    "pid_max", "poweroff_cmd", "print-fatal-signals", "printk", "printk_delay", "printk_devkmsg",
    "printk_ratelimit", "printk_ratelimit_burst", "randomize_va_space", "real-root-dev",
    "sched_autogroup_enabled", "sched_rt_period_us", "sched_rt_runtime_us", "sem",
    "shm_rmid_forced", "shmall", "shmmax", "shmmni", "softlockup_panic", "sysctl_writes_strict",
    "tainted", "threads-max", "timer_migration", "unprivileged_bpf_disabled", "version",
    "warn_limit", "watchdog", "watchdog_thresh"]

def memorySettings : List String :=
   ["admin_reserve_kbytes", "compact_memory", "compaction_proactiveness",
    "dirty_background_bytes", "dirty_background_ratio", "dirty_bytes", "dirty_expire_centisecs",
    "dirty_ratio", "dirty_writeback_centisecs", "drop_caches", "extfrag_threshold",
    "laptop_mode", "legacy_va_layout", "lowmem_reserve_ratio", "max_map_count",
    "min_free_kbytes", "min_slab_ratio", "mmap_min_addr", "nr_hugepages",
    "nr_overcommit_hugepages", "numa_stat", "oom_dump_tasks", "oom_kill_allocating_task",
    "overcommit_kbytes", "overcommit_memory", "overcommit_ratio", "page-cluster", "panic_on_oom",
    "stat_interval", "stat_refresh", "swappiness", "user_reserve_kbytes", "vfs_cache_pressure",
    "watermark_scale_factor", "zone_reclaim_mode"]

def fileSettings : List String :=
   ["aio-max-nr", "aio-nr", "dentry-state", "dir-notify-enable", "file-max", "file-nr",
    "inode-nr", "inode-state", "lease-break-time", "leases-enable", "mount-max", "nr_open",
    "overflowgid", "overflowuid", "pipe-max-size", "pipe-user-pages-hard",
    "pipe-user-pages-soft", "protected_fifos", "protected_hardlinks", "protected_regular",
    "protected_symlinks", "suid_dumpable"]

def socketSettings : List String :=
   ["default_qdisc", "dev_weight", "netdev_max_backlog", "optmem_max", "rmem_default",
    "rmem_max", "somaxconn", "wmem_default", "wmem_max"]

def internetSettings : List String :=
   ["ip_default_ttl", "ip_forward", "ip_local_port_range", "tcp_congestion_control",
    "tcp_fin_timeout", "tcp_keepalive_time", "tcp_max_syn_backlog", "tcp_mem", "tcp_rmem",
    "tcp_sack", "tcp_syncookies", "tcp_timestamps", "tcp_tw_reuse", "tcp_wmem", "udp_mem"]

def kernelAttributes : List String :=
   ["address_bits", "cpu_byteorder", "fscaps", "notes", "oops_count", "profiling",
    "rcu_expedited", "rcu_normal", "uevent_seqnum", "vmcoreinfo", "warn_count"]

def under (directory : Location) (names : List String) (e : Entry) : List (Location × Entry) :=
  names.map fun name => (directory ++ [name], e)

def plain : Entry := .directory none

/-- A view of the system: a name that it does not show cannot be found, nor be made. -/
def view : Entry := .directory (some ⟨.missing, .missing⟩)

def attributes : Entry := .directory (some ⟨.notPermitted, .denied⟩)

def processViewsAt (process : Location) : List (Location × Entry) :=
  (process, view) ::
  under process ["attr", "fd", "fdinfo", "map_files", "net", "ns", "task"] view ++
  under process processViews .foreign ++
  under (process ++ ["attr"]) processLabels .foreign ++
  under (process ++ ["fd"]) ["0", "1", "2"] .foreign ++
  under (process ++ ["fdinfo"]) ["0", "1", "2"] .foreign ++
  under (process ++ ["ns"]) processNamespaces .foreign ++
  under (process ++ ["net"]) networkViews .foreign ++
  under (process ++ ["net"]) ["dev_snmp6", "netfilter", "stat"] view

def systemViewsAt (root : Location) : List (Location × Entry) :=
  (root, view) :: under root systemViews .foreign ++
  under root ["acpi", "bus", "driver", "fs", "irq", "pressure", "sys", "sysvipc", "tty"] view ++
  under (root ++ ["bus"]) ["input", "pci"] view ++
  under (root ++ ["irq"]) ["default_smp_affinity"] .foreign ++
  under (root ++ ["pressure"]) ["cpu", "io", "memory"] .foreign ++
  under (root ++ ["sysvipc"]) ["msg", "sem", "shm"] .foreign ++
  under (root ++ ["tty"]) ["drivers", "ldiscs"] .foreign ++
  under (root ++ ["tty"]) ["driver", "ldisc"] view ++
  under (root ++ ["sys"]) ["abi", "debug", "dev", "fs", "kernel", "net", "user", "vm"] view ++
  under (root ++ ["sys", "kernel"]) kernelSettings .foreign ++
  under (root ++ ["sys", "kernel"]) ["keys", "pty", "random", "seccomp", "usermodehelper"] view ++
  under (root ++ ["sys", "kernel", "random"])
    ["boot_id", "entropy_avail", "poolsize", "urandom_min_reseed_secs", "uuid",
      "write_wakeup_threshold"] .foreign ++
  under (root ++ ["sys", "vm"]) memorySettings .foreign ++
  under (root ++ ["sys", "fs"]) fileSettings .foreign ++
  under (root ++ ["sys", "fs"]) ["binfmt_misc", "epoll", "inotify", "mqueue"] view ++
  under (root ++ ["sys", "net"]) ["core", "ipv4", "ipv6", "netfilter", "unix"] view ++
  under (root ++ ["sys", "net", "core"]) socketSettings .foreign ++
  under (root ++ ["sys", "net", "ipv4"]) internetSettings .foreign

def attributesAt (root : Location) : List (Location × Entry) :=
  (root, attributes) ::
  under root ["block", "bus", "class", "dev", "devices", "firmware", "fs", "kernel", "module",
    "power"] attributes ++
  under (root ++ ["fs"]) ["ext4", "fuse"] attributes ++
  under (root ++ ["fs"]) ["bpf", "pstore"] view ++
  under (root ++ ["fs"]) ["cgroup"] plain ++
  under (root ++ ["kernel"]) ["cgroup", "irq", "mm", "slab"] attributes ++
  under (root ++ ["kernel"]) ["debug", "security", "tracing"] view ++
  under (root ++ ["kernel"]) kernelAttributes .foreign ++
  under (root ++ ["power"]) ["state"] .foreign

def home : Location := ["home", "work"]

def links : List (Location × Location) :=
  [(["bin"], ["usr", "bin"]), (["lib"], ["usr", "lib"]), (["lib64"], ["usr", "lib64"]),
    (["sbin"], ["usr", "sbin"]), (["var", "run"], ["run"]), (["var", "lock"], ["run", "lock"]),
    (["dev", "fd"], ["proc", "self", "fd"]), (["etc", "mtab"], ["proc", "self", "mounts"]),
    (["proc", "mounts"], ["proc", "self", "mounts"]), (["proc", "net"], ["proc", "self", "net"]),
    (["proc", "thread-self"], ["proc", "self"]), (["proc", "self", "cwd"], home),
    (["proc", "self", "root"], []), (["proc", "1", "root"], [])]

end Usual

open Usual in
def usual : FileTree where
  entries :=
    under [] ["boot", "dev", "etc", "home", "media", "mnt", "opt", "root", "run", "srv", "tmp",
      "usr", "var"] plain ++
    under ["run"] ["lock"] plain ++
    under ["usr"] ["bin", "include", "lib", "lib64", "local", "sbin", "share", "src"] plain ++
    under ["usr", "local"] ["bin", "lib", "share"] plain ++
    under ["var"] ["cache", "lib", "log", "opt", "spool", "tmp"] plain ++
    under ["dev"] ["net", "shm"] plain ++ under ["dev"] ["pts"] attributes ++
    under ["dev"] devices .foreign ++ under ["dev"] terminals .foreign ++
    under ["etc"] settings .foreign ++
    under ["usr", "bin"] programs .foreign ++ [(home, plain)] ++
    systemViewsAt ["proc"] ++ processViewsAt ["proc", "self"] ++ processViewsAt ["proc", "1"] ++
    attributesAt ["sys"] ++ links.map fun (location, target) => (location, Entry.link target)
  start := home

def faultOf (directory name : String) : Option FileFault :=
  match (usual.save (.ofString directory) name "").1 with
  | .ok () => none
  | .error (_, fault) => some fault

example : faultOf "/dev/null/out" "x" = some .notDirectory ∧
    faultOf "/dev/null/" "x" = some .taken ∧ faultOf "/proc" "x" = some .missing ∧
    faultOf "/proc/self/status/out" "x" = some .notDirectory ∧
    faultOf "/proc/uptime" "x" = some .taken ∧ faultOf "/sys" "x" = some .denied ∧
    faultOf "/sys/new" "x" = some .notPermitted := by
  decide +kernel

example : faultOf "new/." "x" = some .missing ∧ faultOf "new/sub/.." "x" = none ∧
    faultOf "" "tmp" = none ∧ faultOf "/" "tmp" = some .isDirectory ∧
    faultOf "/bin/../../proc/self/root/" "tmp" = some .isDirectory := by
  decide +kernel

end FileTree

end InferenceGraph
