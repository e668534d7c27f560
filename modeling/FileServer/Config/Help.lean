import FileServer.Config.Arguments

/-!
# The explanation of the options

The explanation has an entry for each option: its names, and below them what it is for, its
variable with the value that it has in the environment, and what holds without a choice.
-/

namespace FileServer

namespace Choice

/-- What the value of the option is called. -/
def valueName : Choice → String
  | port => "PORT"
  | host => "HOST"
  | threads => "THREADS"
  | queueCapacity => "QUEUE_CAPACITY"
  | maxFd => "MAX_FD"
  | maxConnections => "MAX_CONNECTIONS"
  | docRoot => "DOC_ROOT"
  | timeslot => "TIMESLOT_SECS"
  | logFile => "LOG_FILE"
  | logQueue => "LOG_QUEUE"
  | logSplitLines => "LOG_SPLIT_LINES"
  | logLevel => "LOG_LEVEL"

/-- What the option is for. -/
def purpose : Choice → String
  | port => "Puerto en el que escucha el servidor (0 = efímero)"
  | host => "Host/IP en el que escucha"
  | threads => "Número de threads del pool"
  | queueCapacity => "Capacidad máxima de la cola de despacho"
  | maxFd => "Tamaño de la tabla de conexiones (fds en 0..max_fd)"
  | maxConnections => "Máximo de conexiones vivas; por encima se responde 503"
  | docRoot => "Directorio raíz de los archivos servidos"
  | timeslot =>
      "Intervalo de la alarma en segundos; una conexión ociosa se expulsa después de 3 intervalos"
  | logFile => "Archivo de log (sin él, los logs van a stderr)"
  | logQueue => "Capacidad de la cola del logger asíncrono (0 = escritura sincrónica)"
  | logSplitLines => "Líneas por archivo antes de rotar"
  | logLevel => "Nivel de log por defecto (RUST_LOG tiene prioridad)"

/-- The value of a choice in some settings. -/
def value? (settings : Settings) : Choice → Option Text
  | port => some (Decimal.digits settings.port)
  | host => some settings.host
  | threads => some (Decimal.digits settings.threads)
  | queueCapacity => some (Decimal.digits settings.queueCapacity)
  | maxFd => some (Decimal.digits settings.maxFd)
  | maxConnections => some (Decimal.digits settings.maxConnections)
  | docRoot => some settings.docRoot
  | timeslot => some (Decimal.digits settings.timeslot)
  | logFile => settings.logFile
  | logQueue => some (Decimal.digits settings.logQueue)
  | logSplitLines => some (Decimal.digits settings.logSplitLines)
  | logLevel => some settings.logLevel

end Choice

namespace Help

/-- An entry: the names of an option, and a text about it. -/
def entry (shortName : Option Char) (names text : String) : String :=
  let short :=
    match shortName with
    | some name => "-" ++ String.ofList [name] ++ ", "
    | none => "    "
  "  " ++ short ++ "--" ++ names ++ "\n          " ++ text ++ "\n"

/-- The entry of a choice. -/
def choiceEntry (environment : List (String × Text)) (choice : Choice) : String :=
  let variableText :=
    " [env: " ++ choice.variableName ++ "=" ++
      String.ofList ((environment.lookup choice.variableName).getD []) ++ "]"
  let defaultText :=
    match choice.value? {} with
    | some value => " [default: " ++ String.ofList value ++ "]"
    | none => ""
  entry choice.shortName? (choice.longName ++ " <" ++ choice.valueName ++ ">")
    (choice.purpose ++ variableText ++ defaultText)

/-- The explanation of all options. -/
def text (environment : List (String × Text)) : String :=
  "Servidor HTTP/1.1 half-sync/half-reactive de archivos estáticos\n\n" ++
    "Usage: reactor_http [OPTIONS]\n\nOptions:\n" ++
    String.join (Choice.all.map (choiceEntry environment)) ++
    entry (some 'h') "help" "Print help" ++ entry (some 'V') "version" "Print version"

end Help

end FileServer
