import VirtualTopology.Command.LogFile
import VirtualTopology.Command.Request
import VirtualTopology.Command.Shell
import VirtualTopology.Document.Rendering
import VirtualTopology.Pass.Apply
import VirtualTopology.Topology.Loading
import VirtualTopology.Yaml.Writer

/-!
# Commands

Each request is carried out in a `Shell`. Settings come from the defaults, the file, the environment
and the command line, each going before those named earlier (`Settings.withFlags`).

The status of a command is 0 if all went well, 1 if something was wrong, 2 if the command line was
refused, and 130 if the user interrupted.
-/

namespace VirtualTopology

/-- Settings with those of the command line put in; empty texts count as not given. -/
def Settings.withFlags (s : Settings) (f : Flags) : Settings :=
  let uri := (f.uri.filter (!·.isEmpty)).getD s.connection.uri
  let level := ((f.logLevel.filter (!·.isEmpty)).map Text.upper).getD s.log.level
  { s with
    connection := { s.connection with uri, readonly := s.connection.readonly || f.readonly }
    pass := { s.pass with
      dryRun := s.pass.dryRun || f.dryRun
      maxWorkers := f.maxWorkers.getD s.pass.maxWorkers }
    log := { s.log with level, file := f.logFile <|> s.log.file } }

/-! ### Documents of a topology -/

/-- The texts of the documents of all resources that are to be there, each with a name of its own. -/
def Desired.documents (d : Desired) : List (String × Except Unwritable String) :=
  d.networks.items.map (fun n => ("network-" ++ n.name, n.written)) ++
    d.pools.items.flatMap (fun p =>
      ("pool-" ++ p.name, p.written) ::
        (p.volumes.filter (·.present)).filterMap fun e =>
          e.volume.map fun v => ("volume-" ++ p.name ++ "-" ++ e.name, v.written)) ++
    d.domains.items.map (fun x => ("domain-" ++ x.name, x.written))

/-- Those texts, if all of the documents can be written. -/
def Desired.writtenDocuments (d : Desired) : Except Unwritable (List (String × String)) :=
  d.documents.mapM fun (name, text) => do return (name, ← text)

namespace Command

open Shell

/-- Load settings and put those of the command line in. -/
def settings (around : Surroundings) (config : Option PosixPath) (flags : Flags) :
    Shell Settings := do
  match Settings.load (config.bind (← get).workspace.read?) around.environment with
  | .ok s => return s.withFlags flags
  | .error e => do
      if let some message := e.message? then say ("[red]❌ 配置加载失败: " ++ message ++ "[/red]")
      exit 1

/-- Load a topology; `trouble` is what is said if that fails. -/
def topology (s : Settings) (file : PosixPath) (trouble : String) : Shell Desired := do
  match Topology.ofFile s.guests file.text ((← get).workspace.read? file) with
  | .ok d => return d
  | .error e => do
      if let some message := e.message? then say ("[red]❌ " ++ trouble ++ ": " ++ message ++ "[/red]")
      exit 1

/-- Connect to the host. -/
def connect (around : Surroundings) (s : Settings) : Shell Connecting := do
  modify fun t => { t with contacted := some s }
  return around.connecting

/-! ### Tables -/

/-- The table of issues. -/
def issueTable (issues : List Issue) : Block :=
  .table "❌ 拓扑校验失败" ["类型", "名称", "代码", "说明"]
    (issues.map fun i => [i.kind.word, i.name, i.complaint.code, i.complaint.message])

/-- What is said about a result: why it failed, and its details. -/
def notes (r : Result) : List String :=
  let failure :=
    if r.outcome == .failed then
      [((r.failureKind.map (·.word)).getD "error") ++ " (" ++ r.operation.getD "None" ++ "): " ++
        r.reason.getD "None"]
    else []
  failure ++ r.details

/-- The table of a report. -/
def reportTable (r : Report) : Block :=
  .table (if r.dryRun then "📊 调和结果（预览）" else "📊 调和结果") ["类型", "名称", "结果", "说明"]
    (r.results.map fun x => [x.kind.word, x.name, x.outcome.word, "; ".intercalate (notes x)])

/-- The summary of a report: how often each outcome occurs, sorted by their words. -/
def summary (r : Report) : Block :=
  let status := if r.success then "✅ 成功" else "❌ 存在失败或取消的资源"
  let counts := ((r.counts.map fun c => (c.1.word, c.2)).mergeSort fun a b => decide (a.1 ≤ b.1)).map
    fun c => c.1 ++ ": " ++ toString c.2
  let shown := if counts.isEmpty then "无资源" else ", ".intercalate counts
  .panel "摘要" (status ++ "\n" ++ shown)

/-- Names in one line. -/
def listed (names : List String) : String :=
  if names.isEmpty then "-" else ", ".intercalate names

/-- The table of a topology without issues. -/
def topologyTable (d : Desired) : Block :=
  .table "📋 拓扑校验结果" ["类型", "模式", "资源"]
    [["网络", d.networks.word, listed (d.networks.items.map (·.name))],
     ["存储池", d.pools.word, listed (d.pools.items.map (·.name))],
     ["虚拟机", d.domains.word, listed (d.domains.items.map (·.name))]]

/-! ### The commands -/

/-- Bring the host in line with a topology. -/
def apply (around : Surroundings) (file : PosixPath) (s : Settings) : Shell Unit := do
  commit (s.log.opened? (← get).workspace)
  let desired ← topology s file "配置错误"
  match ← connect around s with
  | .interrupted => do
      say "\n[yellow]⚠️  收到中断信号，正在退出...[/yellow]"
      exit 130
  | .fails e => do
      let trouble := if e.kind == .configuration then "配置错误" else "Libvirt 操作失败"
      say ("[red]❌ " ++ trouble ++ ": " ++ e.message ++ "[/red]")
      exit 1
  | .succeeds =>
      match ← talk (s.apply desired) with
      | .error (.invalid issues) => do
          display (issueTable issues)
          exit 1
      | .error (.unwritable _) => exit 1
      | .ok report => do
          display (reportTable report)
          display (summary report)
          exit report.exitCode

/-- Audit a topology. -/
def validate (s : Settings) (file : PosixPath) : Shell Unit := do
  let desired ← topology s file "拓扑加载失败"
  let issues := desired.audit
  if issues.isEmpty then
    display (topologyTable desired)
    say "[bold green]✅ 拓扑校验成功！[/bold green]"
  else
    display (issueTable issues)
    exit 1

/-- Write documents to files in a directory, and say so. -/
def writeAll (directory : PosixPath) : List (String × String) → Shell Unit
  | [] => return
  | (name, text) :: rest => do
      let path := directory.join (.ofText (name ++ ".xml"))
      commit ((← get).workspace.write? path (text ++ "\n"))
      say ("✅ 已写入: [bold blue]" ++ path.text ++ "[/bold blue]")
      writeAll directory rest

/-- Show the documents of a topology, or write them to a directory. -/
def render (s : Settings) (file : PosixPath) (directory : Option PosixPath) : Shell Unit := do
  let desired ← topology s file "拓扑加载失败"
  match desired.writtenDocuments, directory with
  | .error _, _ => exit 1
  | .ok documents, some directory => do
      commit ((← get).workspace.makeDirectory? directory)
      writeAll directory documents
  | .ok documents, none => documents.forM fun d => display (.panel d.1 d.2)

/-- Ask for the names of all three kinds. -/
def inventory : Talk (Except HostError (List (List String))) := do
  match ← (Call.list .network).ask with
  | .error e => return .error e
  | .ok networks =>
      match ← (Call.list .pool).ask with
      | .error e => return .error e
      | .ok pools =>
          match ← (Call.list .domain).ask with
          | .error e => return .error e
          | .ok domains => return .ok [networks, pools, domains]

/-- Connect to the host and list what is there. -/
def check (around : Surroundings) (s : Settings) : Shell Unit := do
  say ("[blue]🔍 正在检查 Libvirt 连接: " ++ s.connection.uri ++ "[/blue]")
  let found ← match ← connect around s with
    | .interrupted => exit 130
    | .fails e => pure (.error e)
    | .succeeds => talk inventory
  match found with
  | .error e => do
      say ("[red]❌ Libvirt 连接检查失败: " ++ e.message ++ "[/red]")
      exit 1
  | .ok names => do
      display (.table "🖥️  Libvirt 连接状态" ["项目", "值"]
        ([["连接 URI", s.connection.uri], ["连接状态", "✅ 已连接"]] ++
          (["网络", "存储池", "虚拟机"].zip names).map fun (kind, names) => [kind, listed names]))
      say "[bold green]✅ Libvirt 连接检查成功！[/bold green]"

/-- Write settings with their defaults to a file. -/
def generate (file : PosixPath) : Shell Unit := do
  let text := Yaml.write ({} : Settings).dump
  let directory := (← get).workspace.makeDirectory? file.parent
  match directory.bind fun w => w.write? file text with
  | some w => do
      commit (some w)
      say ("✅ 已生成示例配置文件: [bold blue]" ++ file.text ++ "[/bold blue]")
      say "请根据需要编辑配置文件后使用。"
  | none => do
      say ("[red]❌ 生成配置文件失败: " ++ file.text ++ "[/red]")
      exit 1

/-- Carry out a request. -/
def perform (around : Surroundings) : Request → Shell Unit
  | .version =>
      say "[bold green]libvirt-reconciler[/bold green] version [bold blue]1.0.0[/bold blue]"
  | .apply file config flags => do apply around file (← settings around config flags)
  | .validate file config => do validate (← settings around config {}) file
  | .render file config directory => do render (← settings around config {}) file directory
  | .check flags => do check around (← settings around none flags)
  | .generate file => generate file

/-- Run a command line in a workspace: the status with which it ends, and what it leaves behind. -/
def run (around : Surroundings) (w : Workspace) (words : List String) : Talk (Nat × Terminal) :=
  match Request.parse w words with
  | none => return (2, { workspace := w })
  | some request => (perform around request).start w

end Command

end VirtualTopology
