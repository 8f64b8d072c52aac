import OperatingSystem.Almacenamiento.Copias
import OperatingSystem.Almacenamiento.Ficheros
import OperatingSystem.Almacenamiento.Intercambio
import OperatingSystem.Almacenamiento.Modulos
import OperatingSystem.Almacenamiento.Refinamiento
import OperatingSystem.Almacenamiento.Vista
import OperatingSystem.Cpu.Ciclo
import OperatingSystem.Cpu.Computadora
import OperatingSystem.Cpu.Decodificacion
import OperatingSystem.Cpu.Desalojos
import OperatingSystem.Cpu.Despacho
import OperatingSystem.Cpu.Ejecucion
import OperatingSystem.Cpu.Interrupciones
import OperatingSystem.Cpu.Logica
import OperatingSystem.Cpu.Maquina
import OperatingSystem.Cpu.Paginada
import OperatingSystem.Cpu.Palabras
import OperatingSystem.Cpu.Rangos
import OperatingSystem.Cpu.Rechazos
import OperatingSystem.Cpu.Transparencia
import OperatingSystem.FileSystem.Acceso
import OperatingSystem.FileSystem.Ampliaciones
import OperatingSystem.FileSystem.Archivo
import OperatingSystem.FileSystem.Bloques
import OperatingSystem.FileSystem.Cadenas
import OperatingSystem.FileSystem.Corridas
import OperatingSystem.FileSystem.Fat
import OperatingSystem.FileSystem.Invariante
import OperatingSystem.FileSystem.Respaldo
import OperatingSystem.FileSystem.Swap
import OperatingSystem.Kernel.Adelantos
import OperatingSystem.Kernel.Aperturas
import OperatingSystem.Kernel.Archivos
import OperatingSystem.Kernel.Cargas
import OperatingSystem.Kernel.Cierres
import OperatingSystem.Kernel.ColaArchivo
import OperatingSystem.Kernel.ColaReady
import OperatingSystem.Kernel.Conservacion
import OperatingSystem.Kernel.Desencolado
import OperatingSystem.Kernel.Entregas
import OperatingSystem.Kernel.Esperas
import OperatingSystem.Kernel.Exclusion
import OperatingSystem.Kernel.Fases
import OperatingSystem.Kernel.Fichas
import OperatingSystem.Kernel.Filesystem
import OperatingSystem.Kernel.Hilos
import OperatingSystem.Kernel.Interbloqueo
import OperatingSystem.Kernel.Jerarquia
import OperatingSystem.Kernel.Liberaciones
import OperatingSystem.Kernel.Multiprogramacion
import OperatingSystem.Kernel.Planificacion
import OperatingSystem.Kernel.Prioridades
import OperatingSystem.Kernel.Proceso
import OperatingSystem.Kernel.Recursos
import OperatingSystem.Kernel.Ronda
import OperatingSystem.Kernel.Salidas
import OperatingSystem.Kernel.Senales
import OperatingSystem.Kernel.TablaArchivos
import OperatingSystem.Kernel.Terminados
import OperatingSystem.Kernel.Terminal
import OperatingSystem.Kernel.Trabas
import OperatingSystem.Kernel.Turnos
import OperatingSystem.Lib.Bytes
import OperatingSystem.Lib.CInt
import OperatingSystem.Lib.Caches
import OperatingSystem.Lib.Cells
import OperatingSystem.Lib.Chains
import OperatingSystem.Lib.Decimal
import OperatingSystem.Lib.Dictionary
import OperatingSystem.Lib.Frames
import OperatingSystem.Lib.Lists
import OperatingSystem.Lib.Queues
import OperatingSystem.Lib.Run
import OperatingSystem.Lib.Stutter
import OperatingSystem.Lib.Traces
import OperatingSystem.Lib.Triples
import OperatingSystem.Lib.Waits
import OperatingSystem.Memoria.Antiguedad
import OperatingSystem.Memoria.Conexiones
import OperatingSystem.Memoria.Contenido
import OperatingSystem.Memoria.Direcciones
import OperatingSystem.Memoria.HandlerPaginacion
import OperatingSystem.Memoria.InstruccionProceso
import OperatingSystem.Memoria.Lectura
import OperatingSystem.Memoria.Lugares
import OperatingSystem.Memoria.Marcas
import OperatingSystem.Memoria.Marcos
import OperatingSystem.Memoria.Modificadas
import OperatingSystem.Memoria.Paginas
import OperatingSystem.Memoria.Pedidos
import OperatingSystem.Memoria.Programas
import OperatingSystem.Memoria.Reemplazo
import OperatingSystem.Memoria.Remociones
import OperatingSystem.Utils.Contexto
import OperatingSystem.Utils.Instrucciones
import OperatingSystem.Utils.Protocolo
import OperatingSystem.Utils.Serializacion
import OperatingSystem.Utils.Tramas
